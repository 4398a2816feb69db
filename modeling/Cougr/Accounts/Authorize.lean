import Cougr.Accounts.SessionStorage
import Cougr.SimpleWorld

namespace Cougr.Accounts

class CougrAccount (A : Type) where
  address : A → Address
  capabilities : A → AccountCapabilities
  authorize : A → Env → GameAction → Outcome Unit

class SessionKeyProvider (A : Type) extends CougrAccount A where
  createSession : A → Env → SessionScope → Option (Except AccountError SessionKey × A × Env)
  validateSession : A → Env → SessionKey → Except AccountError Bool
  revokeSession : A → Env → BytesN 32 → Option (Except AccountError Unit × A × Env)

structure ContractAccount where
  address : Address

namespace ContractAccount

def capabilities (_ : ContractAccount) : AccountCapabilities where
  canBatch := true
  hasSessionKeys := true
  hasSocialRecovery := true
  hasPasskeyAuth := true

-- The test `authorize` puts to each stored key.
def covers (key : SessionKey) (action : GameAction) : Bool :=
  action.systemName ∈ key.scope.allowedActions && key.operationsUsed < key.scope.maxOperations

def authorize (self : ContractAccount) (env : Env) (action : GameAction) : Outcome Unit :=
  let keys := SessionStorage.loadAll env self.address
  if keys.any fun key => covers key action then
    some (.ok (), env)
  else
    (env.requireAuth self.address).map fun env => (.ok (), env)

-- Every session gets the same placeholder id.
def placeholderId : BytesN 32 := Vector.replicate 32 0

def createSession (self : ContractAccount) (env : Env) (scope : SessionScope) :
    Except AccountError SessionKey × Env :=
  let key : SessionKey :=
    { keyId := placeholderId, scope, createdAt := env.timestamp, operationsUsed := 0 }
  (.ok key, SessionStorage.store env self.address key)

def validateSession (_ : ContractAccount) (env : Env) (key : SessionKey) : Except AccountError Bool :=
  let now := env.timestamp
  if now ≥ key.scope.expiresAt then .ok false
  else if key.operationsUsed ≥ key.scope.maxOperations then .ok false
  else .ok true

def revokeSession (self : ContractAccount) (env : Env) (keyId : BytesN 32) :
    Except AccountError Unit × Env :=
  match SessionStorage.remove env self.address keyId with
  | (true, env) => (.ok (), env)
  | (false, env) => (.error .InvalidScope, env)

instance : SessionKeyProvider ContractAccount where
  address := address
  capabilities := capabilities
  authorize := authorize
  createSession self env scope :=
    let (result, env) := self.createSession env scope
    some (result, self, env)
  validateSession := validateSession
  revokeSession self env keyId :=
    let (result, env) := self.revokeSession env keyId
    some (result, self, env)

@[simp] theorem authorize_eq (self : ContractAccount) (env : Env) (action : GameAction) :
    CougrAccount.authorize self env action = self.authorize env action := rfl

end ContractAccount

-- An empty list of allowed actions permits every action.
def isActionAllowed (scope : SessionScope) (action : Symbol) : Bool :=
  if scope.allowedActions.isEmpty then true else action ∈ scope.allowedActions

section Generic

variable {A : Type} [CougrAccount A]

def authorizeWithFallback (env : Env) (account : A) (action : GameAction)
    (session : Option SessionKey) : Outcome Unit :=
  match session with
  | some key =>
    if (CougrAccount.capabilities account).hasSessionKeys ∧ env.timestamp < key.scope.expiresAt ∧
        key.operationsUsed < key.scope.maxOperations ∧ isActionAllowed key.scope action.systemName then
      some (.ok (), env)
    else CougrAccount.authorize account env action
  | none => CougrAccount.authorize account env action

-- The loops that authorize one action after the other and stop at the first error.
def eachAction (authorizeOne : Env → GameAction → Outcome Unit) : Env → List GameAction → Outcome Unit
  | env, [] => some (.ok (), env)
  | env, action :: actions =>
    match authorizeOne env action with
    | some (.ok (), env) => eachAction authorizeOne env actions
    | some (.error error, env) => some (.error error, env)
    | none => none

structure BatchBuilder where
  actions : List GameAction

namespace BatchBuilder

def new : BatchBuilder := ⟨[]⟩

def add (self : BatchBuilder) (action : GameAction) : BatchBuilder := ⟨self.actions ++ [action]⟩

def execute (self : BatchBuilder) (env : Env) (account : A) : Outcome (List GameAction) :=
  if self.actions.isEmpty then some (.error .BatchEmpty, env)
  else
    (eachAction (CougrAccount.authorize account) env self.actions).map fun (result, env) =>
      (result.map fun _ => self.actions, env)

end BatchBuilder

def batchOrSequential (env : Env) (account : A) (actions : List GameAction) : Outcome Unit :=
  if actions.isEmpty then some (.error .BatchEmpty, env)
  else if (CougrAccount.capabilities account).canBatch then
    ((actions.foldl BatchBuilder.add BatchBuilder.new).execute env account).map fun (result, env) =>
      (result.map fun _ => (), env)
  else eachAction (CougrAccount.authorize account) env actions

end Generic

end Cougr.Accounts

namespace Cougr

open Accounts

structure GameWorld (A : Type) where
  world : SimpleWorld
  account : A
  activeSession : Option SessionKey

namespace GameWorld

variable {A : Type}

def new (world : SimpleWorld) (account : A) : GameWorld A :=
  { world, account, activeSession := none }

def setSession (self : GameWorld A) (session : SessionKey) : GameWorld A :=
  { self with activeSession := some session }

def endSession (self : GameWorld A) : GameWorld A := { self with activeSession := none }

def executeAuthorized [CougrAccount A] (self : GameWorld A) (env : Env) (action : GameAction) :
    Outcome Unit :=
  authorizeWithFallback env self.account action self.activeSession

def batchExecute [CougrAccount A] (self : GameWorld A) (env : Env) (actions : List GameAction) :
    Outcome Unit :=
  eachAction self.executeAuthorized env actions

def startSession [SessionKeyProvider A] (self : GameWorld A) (env : Env) (scope : SessionScope) :
    Option (Except AccountError SessionKey × GameWorld A × Env) :=
  match SessionKeyProvider.createSession self.account env scope with
  | some (.ok key, account, env) =>
    some (.ok key, { self with account, activeSession := some key }, env)
  | some (.error error, account, env) => some (.error error, { self with account }, env)
  | none => none

end GameWorld

end Cougr
