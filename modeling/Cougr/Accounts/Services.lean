import Cougr.Accounts.Authorize
import Cougr.Accounts.Devices
import Cougr.Accounts.Recovery
import Cougr.Accounts.Secp256r1

namespace Cougr.Accounts

-- The services that keep entries of their own for an account.
inductive Service where
  | sessions
  | recovery
  | devices
  | passkeys
  deriving DecidableEq

def AccountKey.owner : AccountKey → Address × Service
  | .sessKeys account => (account, .sessions)
  | .rcvGuard account => (account, .recovery)
  | .rcvConf account => (account, .recovery)
  | .rcvReq account => (account, .recovery)
  | .devKeys account => (account, .devices)
  | .devPolicy account => (account, .devices)
  | .p256Keys account => (account, .passkeys)

inductive ServiceOp where
  | createSession (scope : SessionScope)
  | revokeSession (keyId : BytesN 32)
  | incrementUsage (keyId : BytesN 32)
  | cleanupExpired
  | authorize (action : GameAction)
  | newRecovery (config : RecoveryConfig)
  | addGuardian (guardian : Address)
  | removeGuardian (guardian : Address)
  | initiateRecovery (newOwner : Address)
  | approveRecovery (guardian : Address)
  | cancelRecovery
  | executeRecovery
  | activeRequest
  | newDevices (policy : DevicePolicy)
  | registerDevice (keyId : BytesN 32) (deviceName : Symbol)
  | revokeDevice (keyId : BytesN 32)
  | updateLastUsed (keyId : BytesN 32)
  | setPolicy (policy : DevicePolicy)
  | cleanupInactive
  | listDevices
  | storePasskey (key : Secp256r1Key)
  | removePasskey (label : Symbol)
  | findPasskey (label : Symbol)

namespace ServiceOp

def service : ServiceOp → Service
  | .createSession _ | .revokeSession _ | .incrementUsage _ | .cleanupExpired | .authorize _ => .sessions
  | .newRecovery _ | .addGuardian _ | .removeGuardian _ | .initiateRecovery _ | .approveRecovery _
  | .cancelRecovery | .executeRecovery | .activeRequest => .recovery
  | .newDevices _ | .registerDevice _ _ | .revokeDevice _ | .updateLastUsed _ | .setPolicy _ | .cleanupInactive
  | .listDevices => .devices
  | .storePasskey _ | .removePasskey _ | .findPasskey _ => .passkeys

def Answer : ServiceOp → Type
  | .createSession _ => Except AccountError SessionKey
  | .initiateRecovery _ => Except AccountError RecoveryRequest
  | .executeRecovery => Except AccountError Address
  | .activeRequest => Option RecoveryRequest
  | .registerDevice _ _ => Except AccountError DeviceKey
  | .cleanupExpired | .cleanupInactive => Nat
  | .listDevices => List DeviceKey
  | .removePasskey _ => Bool
  | .findPasskey _ => Option Secp256r1Key
  | .newRecovery _ | .newDevices _ | .setPolicy _ | .storePasskey _ => Unit
  | _ => Except AccountError Unit

-- The call through a handle on the account.
def invoke (account : Address) (env : Env) : (op : ServiceOp) → Option (op.Answer × Env)
  | .createSession scope => some ((ContractAccount.mk account).createSession env scope)
  | .revokeSession keyId => some ((ContractAccount.mk account).revokeSession env keyId)
  | .incrementUsage keyId => SessionStorage.incrementUsage env account keyId
  | .cleanupExpired => some (SessionStorage.cleanupExpired env account)
  | .authorize action => (ContractAccount.mk account).authorize env action
  | .newRecovery config => some ((), (RecoverableAccount.new account config env).2)
  | .addGuardian guardian => some ((RecoverableAccount.load account).addGuardian env guardian)
  | .removeGuardian guardian => some ((RecoverableAccount.load account).removeGuardian env guardian)
  | .initiateRecovery newOwner => (RecoverableAccount.load account).initiateRecovery env newOwner
  | .approveRecovery guardian => some ((RecoverableAccount.load account).approveRecovery env guardian)
  | .cancelRecovery => some ((RecoverableAccount.load account).cancelRecovery env)
  | .executeRecovery =>
    let (result, _, env) := (RecoverableAccount.load account).executeRecovery env
    some (result, env)
  | .activeRequest => some ((RecoverableAccount.load account).activeRequest env, env)
  | .newDevices policy => some ((), (DeviceManager.new account policy env).2)
  | .registerDevice keyId deviceName => some ((DeviceManager.load account).registerDevice env keyId deviceName)
  | .revokeDevice keyId => some ((DeviceManager.load account).revokeDevice env keyId)
  | .updateLastUsed keyId => some ((DeviceManager.load account).updateLastUsed env keyId)
  | .setPolicy policy => some ((), (DeviceManager.load account).setPolicy env policy)
  | .cleanupInactive => some ((DeviceManager.load account).cleanupInactive env)
  | .listDevices => some ((DeviceManager.load account).listDevices env, env)
  | .storePasskey key => some ((), Secp256r1Storage.store env account key)
  | .removePasskey label => some (Secp256r1Storage.remove env account label)
  | .findPasskey label => some (Secp256r1Storage.findByLabel env account label, env)

end ServiceOp

-- A call in an invocation of its own.
structure ServiceCall where
  timestamp : Nat
  authorized : Address → Bool
  account : Address
  op : ServiceOp

namespace ServiceCall

abbrev Entries := KeyStore AccountKey.Value

def env (entries : Entries) (call : ServiceCall) : Env where
  timestamp := call.timestamp
  persistent := entries
  authorized := call.authorized
  authLog := []

def invoke (entries : Entries) (call : ServiceCall) : Option (call.op.Answer × Env) :=
  call.op.invoke call.account (call.env entries)

-- A call that traps is rolled back.
def step (entries : Entries) (call : ServiceCall) : Entries :=
  match call.invoke entries with
  | some (_, env) => env.persistent
  | none => entries

-- What the caller sees: the answer and who was asked for an authorization, or a trap.
def reply (entries : Entries) (call : ServiceCall) : (op : ServiceOp) × Option (op.Answer × List Address) :=
  ⟨call.op, (call.invoke entries).map fun (answer, env) => (answer, env.authLog)⟩

def owner (call : ServiceCall) : Address × Service := (call.account, call.op.service)

-- The call executes a recovery that hands over to the account. The request it removes then is the one of the
-- new owner.
def HandsOverTo (account : Address) (entries : Entries) (call : ServiceCall) : Prop :=
  call.op = .executeRecovery ∧
    ((RecoverableAccount.load call.account).executeRecovery (call.env entries)).1 = .ok account

end ServiceCall

end Cougr.Accounts
