import Cougr.Accounts.Authorize
import Cougr.Library.Transition

namespace Cougr.Accounts

-- The call says yes and has asked the host for nobody's authorization.
def ApprovedWithoutAuth {α : Type} (env : Env) (outcome : Outcome α) : Prop :=
  ∃ value env', outcome = some (.ok value, env') ∧ env'.authLog = env.authLog

-- The check the fallback makes on the session key it is handed.
def LocallyValid (env : Env) (action : GameAction) (key : SessionKey) : Prop :=
  env.timestamp < key.scope.expiresAt ∧ key.operationsUsed < key.scope.maxOperations ∧
    isActionAllowed key.scope action.systemName

namespace ContractAccount

def CoveringKeyStored (self : ContractAccount) (env : Env) (action : GameAction) : Prop :=
  ∃ key ∈ SessionStorage.loadAll env self.address, covers key action

-- Some stored key lists the action and passes `validate_session`.
def LiveKeyStored (self : ContractAccount) (env : Env) (action : GameAction) : Prop :=
  ∃ key ∈ SessionStorage.loadAll env self.address,
    action.systemName ∈ key.scope.allowedActions ∧ self.validateSession env key = .ok true

theorem requireAuth_not_silent {env env' : Env} {address : Address}
    (h : env.requireAuth address = some env') : env'.authLog ≠ env.authLog := by
  unfold Env.requireAuth at h
  split_ifs at h
  cases h
  simp

theorem approved_authorize_iff (self : ContractAccount) (env : Env) (action : GameAction) :
    ApprovedWithoutAuth env (self.authorize env action) ↔ self.CoveringKeyStored env action := by
  unfold authorize CoveringKeyStored
  dsimp only
  split_ifs with hcovers
  · rw [List.any_eq_true] at hcovers
    exact ⟨fun _ => hcovers, fun _ => ⟨_, _, rfl, rfl⟩⟩
  · rw [List.any_eq_true] at hcovers
    refine ⟨?_, fun h => absurd h hcovers⟩
    rintro ⟨value, env', hresult, hlog⟩
    obtain ⟨env'', hauth, hpair⟩ := Option.map_eq_some_iff.mp hresult
    cases hpair
    exact absurd hlog (requireAuth_not_silent hauth)

theorem approved_withFallback_iff (self : ContractAccount) (env : Env) (action : GameAction)
    (session : Option SessionKey) :
    ApprovedWithoutAuth env (authorizeWithFallback env self action session) ↔
      (∃ key, session = some key ∧ LocallyValid env action key) ∨
        self.CoveringKeyStored env action := by
  have hauthorize := approved_authorize_iff self env action
  cases session with
  | none => simpa [authorizeWithFallback] using hauthorize
  | some key =>
      by_cases hlocal : LocallyValid env action key
      · have hfast : authorizeWithFallback env self action (some key) = some (.ok (), env) :=
          if_pos ⟨rfl, hlocal⟩
        rw [hfast]
        exact ⟨fun _ => Or.inl ⟨key, rfl, hlocal⟩, fun _ => ⟨_, _, rfl, rfl⟩⟩
      · have hslow : authorizeWithFallback env self action (some key) = self.authorize env action :=
          if_neg fun h => hlocal h.2
        rw [hslow, hauthorize]
        simp [hlocal]

theorem validateSession_eq_true_iff (self : ContractAccount) (env : Env) (key : SessionKey) :
    self.validateSession env key = .ok true ↔
      env.timestamp < key.scope.expiresAt ∧ key.operationsUsed < key.scope.maxOperations := by
  unfold validateSession
  dsimp only
  split_ifs <;> simp_all

end ContractAccount

-- One game world on a contract account, with the host it runs on.
structure SessionState where
  env : Env
  game : GameWorld ContractAccount

inductive SessionOp where
  -- a new invocation, at its ledger time and with the authorizations it carries
  | invoke (timestamp : Nat) (authorized : Address → Bool)
  | startSession (scope : SessionScope)
  | createSession (scope : SessionScope)
  | setSession (key : SessionKey)
  | endSession
  | incrementUsage (keyId : BytesN 32)
  | revokeSession (keyId : BytesN 32)
  | cleanupExpired
  | executeAuthorized (action : GameAction)
  | batchExecute (actions : List GameAction)
  | authorize (action : GameAction)
  | batchOrSequential (actions : List GameAction)

namespace SessionState

-- A trapped call is rolled back.
def settle {α : Type} (state : SessionState) (outcome : Outcome α) : SessionState :=
  match outcome with
  | some (_, env) => { state with env }
  | none => state

def account (state : SessionState) : ContractAccount := state.game.account

def step (state : SessionState) : SessionOp → SessionState
  | .invoke timestamp authorized =>
    { state with env := { state.env with timestamp, authorized, authLog := [] } }
  | .startSession scope =>
    match state.game.startSession state.env scope with
    | some (_, game, env) => { env, game }
    | none => state
  | .createSession scope => { state with env := (state.account.createSession state.env scope).2 }
  | .setSession key => { state with game := state.game.setSession key }
  | .endSession => { state with game := state.game.endSession }
  | .incrementUsage keyId =>
    state.settle (SessionStorage.incrementUsage state.env state.account.address keyId)
  | .revokeSession keyId => { state with env := (state.account.revokeSession state.env keyId).2 }
  | .cleanupExpired =>
    { state with env := (SessionStorage.cleanupExpired state.env state.account.address).2 }
  | .executeAuthorized action => state.settle (state.game.executeAuthorized state.env action)
  | .batchExecute actions => state.settle (state.game.batchExecute state.env actions)
  | .authorize action => state.settle (state.account.authorize state.env action)
  | .batchOrSequential actions => state.settle (batchOrSequential state.env state.account actions)

-- The keys stored for the account of the game world.
def keys (state : SessionState) : List SessionKey :=
  SessionStorage.loadAll state.env state.account.address

end SessionState

end Cougr.Accounts
