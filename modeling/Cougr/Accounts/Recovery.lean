import Cougr.Accounts.Env
import Cougr.Library.KeyedList

namespace Cougr.Accounts

namespace RecoveryStorage

def storeGuardians (env : Env) (account : Address) (guardians : List Guardian) : Env :=
  env.set (.rcvGuard account) guardians

def loadGuardians (env : Env) (account : Address) : List Guardian :=
  (env.get (.rcvGuard account) : Option (List Guardian)).getD []

def storeConfig (env : Env) (account : Address) (config : RecoveryConfig) : Env :=
  env.set (.rcvConf account) config

def loadConfig (env : Env) (account : Address) : Option RecoveryConfig :=
  env.get (.rcvConf account)

def storeRequest (env : Env) (account : Address) (request : RecoveryRequest) : Env :=
  env.set (.rcvReq account) request

def loadRequest (env : Env) (account : Address) : Option RecoveryRequest :=
  env.get (.rcvReq account)

def removeRequest (env : Env) (account : Address) : Env :=
  env.remove (.rcvReq account)

end RecoveryStorage

open RecoveryStorage

-- A handle: everything but the address lives in storage.
structure RecoverableAccount where
  address : Address
  deriving DecidableEq

namespace RecoverableAccount

def new (address : Address) (config : RecoveryConfig) (env : Env) : RecoverableAccount × Env :=
  ({ address }, storeGuardians (storeConfig env address config) address [])

def load (address : Address) : RecoverableAccount := { address }

def activeRequest (self : RecoverableAccount) (env : Env) : Option RecoveryRequest :=
  loadRequest env self.address

-- The search that the guardian operations make in the guardian list.
def listed (guardians : List Guardian) (guardian : Address) : Bool :=
  guardians.any fun g => g.address = guardian

def addGuardian (self : RecoverableAccount) (env : Env) (guardian : Address) :
    Except AccountError Unit × Env :=
  match loadConfig env self.address with
  | none => (.error .StorageError, env)
  | some config =>
    let guardians := loadGuardians env self.address
    if guardians.length ≥ config.maxGuardians then (.error .MaxGuardiansReached, env)
    else if listed guardians guardian then (.error .GuardianAlreadyExists, env)
    else
      let newGuardians := guardians ++ [{ address := guardian, addedAt := env.timestamp }]
      (.ok (), storeGuardians env self.address newGuardians)

def removeGuardian (self : RecoverableAccount) (env : Env) (guardian : Address) :
    Except AccountError Unit × Env :=
  let guardians := loadGuardians env self.address
  let newGuardians := KeyedList.removeKey Guardian.address guardian guardians
  if ¬listed guardians guardian then (.error .InvalidScope, env)
  else (.ok (), storeGuardians env self.address newGuardians)

def initiateRecovery (self : RecoverableAccount) (env : Env) (newOwner : Address) :
    Outcome RecoveryRequest :=
  if (loadRequest env self.address).isSome then some (.error .RecoveryAlreadyActive, env)
  else
    match loadConfig env self.address with
    | none => some (.error .StorageError, env)
    | some config =>
      let now := env.timestamp
      (checkedAdd u64Max now config.timelockPeriod).map fun timelockUntil =>
        let request : RecoveryRequest :=
          { newOwner, approvals := [], initiatedAt := now, timelockUntil, cancelled := false }
        (.ok request, storeRequest env self.address request)

def approveRecovery (self : RecoverableAccount) (env : Env) (guardian : Address) :
    Except AccountError Unit × Env :=
  match loadRequest env self.address with
  | none => (.error .RecoveryNotInitiated, env)
  | some request =>
    if request.cancelled then (.error .RecoveryNotInitiated, env)
    else if ¬listed (loadGuardians env self.address) guardian then (.error .Unauthorized, env)
    else if guardian ∈ request.approvals then (.ok (), env)
    else
      let request := { request with approvals := request.approvals ++ [guardian] }
      (.ok (), storeRequest env self.address request)

def cancelRecovery (self : RecoverableAccount) (env : Env) : Except AccountError Unit × Env :=
  match loadRequest env self.address with
  | none => (.error .RecoveryNotInitiated, env)
  | some request =>
    if request.cancelled then (.error .RecoveryNotInitiated, env)
    else (.ok (), removeRequest env self.address)

def executeRecovery (self : RecoverableAccount) (env : Env) :
    Except AccountError Address × RecoverableAccount × Env :=
  match loadRequest env self.address with
  | none => (.error .RecoveryNotInitiated, self, env)
  | some request =>
    if request.cancelled then (.error .RecoveryNotInitiated, self, env)
    else
      match loadConfig env self.address with
      | none => (.error .StorageError, self, env)
      | some config =>
        if request.approvals.length < config.threshold then (.error .ThresholdNotMet, self, env)
        else if env.timestamp < request.timelockUntil then (.error .TimelockNotExpired, self, env)
        else
          -- the handle moves to the new owner before its request is removed
          let self := { self with address := request.newOwner }
          (.ok request.newOwner, self, removeRequest env self.address)

def guardianCount (self : RecoverableAccount) (env : Env) : Nat :=
  (loadGuardians env self.address).length

def recoveryConfig (self : RecoverableAccount) (env : Env) : RecoveryConfig :=
  (loadConfig env self.address).getD { threshold := 0, timelockPeriod := 0, maxGuardians := 0 }

end RecoverableAccount

inductive RecoveryOp where
  | addGuardian (guardian : Address)
  | removeGuardian (guardian : Address)
  | initiateRecovery (newOwner : Address)
  | approveRecovery (guardian : Address)
  | cancelRecovery
  | executeRecovery
  deriving DecidableEq

-- A call through some handle on `account`, at its ledger time.
structure RecoveryCall where
  timestamp : Nat
  account : Address
  op : RecoveryOp

namespace RecoveryCall

-- An operation that fails leaves its environment, one that traps is rolled back.
def step (env : Env) (call : RecoveryCall) : Env :=
  let env := env.atTime call.timestamp
  let self := RecoverableAccount.load call.account
  match call.op with
  | .addGuardian guardian => (self.addGuardian env guardian).2
  | .removeGuardian guardian => (self.removeGuardian env guardian).2
  | .initiateRecovery newOwner =>
    match self.initiateRecovery env newOwner with
    | some (_, env) => env
    | none => env
  | .approveRecovery guardian => (self.approveRecovery env guardian).2
  | .cancelRecovery => (self.cancelRecovery env).2
  | .executeRecovery => (self.executeRecovery env).2.2

end RecoveryCall

end Cougr.Accounts
