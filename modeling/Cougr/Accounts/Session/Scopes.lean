import Cougr.Accounts.Session

namespace Cougr.Accounts

-- The session alone settles the call: what the account itself would say is not asked.
def TakesFastPath {A : Type} [inst : CougrAccount A] (env : Env) (account : A) (action : GameAction)
    (session : SessionKey) : Prop :=
  ∀ authorize : A → Env → GameAction → Outcome Unit,
    @authorizeWithFallback A { inst with authorize } env account action (some session) = some (.ok (), env)

theorem takesFastPath_iff {A : Type} [CougrAccount A] (env : Env) (account : A) (action : GameAction)
    (session : SessionKey) : TakesFastPath env account action session ↔
      (CougrAccount.capabilities account).hasSessionKeys ∧ LocallyValid env action session := by
  constructor
  · intro hfast
    by_contra hslow
    -- an account that traps is not reached either
    have htrap : (none : Outcome Unit) = some (.ok (), env) :=
      (if_neg hslow).symm.trans (hfast fun _ _ _ => none)
    cases htrap
  · intro hlocal authorize
    exact if_pos hlocal

theorem isActionAllowed_iff (scope : SessionScope) (action : Symbol) :
    isActionAllowed scope action ↔ scope.allowedActions = [] ∨ action ∈ scope.allowedActions := by
  unfold isActionAllowed
  split_ifs with hempty
  · exact iff_of_true rfl (Or.inl (List.isEmpty_iff.mp hempty))
  · rw [decide_eq_true_eq, or_iff_right fun h => hempty (List.isEmpty_iff.mpr h)]

namespace ContractAccount

-- One key is stored for the account; it has not expired and has operations left.
structure SoleLiveKey (account : ContractAccount) (env : Env) (key : SessionKey) : Prop where
  sole : SessionStorage.loadAll env account.address = [key]
  unexpired : env.timestamp < key.scope.expiresAt
  unexhausted : key.operationsUsed < key.scope.maxOperations

-- The shortcut over the session and the account's own walk over its keys let the same action pass.
def ScopesAgree (account : ContractAccount) (env : Env) (key : SessionKey) (action : GameAction) : Prop :=
  TakesFastPath env account action key ↔ ApprovedWithoutAuth env (account.authorize env action)

variable {account : ContractAccount} {env : Env} {key : SessionKey}

theorem SoleLiveKey.takesFastPath_iff (h : account.SoleLiveKey env key) (action : GameAction) :
    TakesFastPath env account action key ↔
      key.scope.allowedActions = [] ∨ action.systemName ∈ key.scope.allowedActions := by
  rw [Accounts.takesFastPath_iff, ← isActionAllowed_iff]
  exact ⟨fun hfast => hfast.2.2.2, fun hallowed => ⟨rfl, h.unexpired, h.unexhausted, hallowed⟩⟩

theorem SoleLiveKey.approved_authorize_iff (h : account.SoleLiveKey env key) (action : GameAction) :
    ApprovedWithoutAuth env (account.authorize env action) ↔ action.systemName ∈ key.scope.allowedActions := by
  rw [ContractAccount.approved_authorize_iff, CoveringKeyStored, h.sole]
  simp [covers, h.unexhausted]

-- An empty list permits everything to one reader and nothing to the other.
theorem scopes_agree_iff (h : account.SoleLiveKey env key) (action : GameAction) :
    account.ScopesAgree env key action ↔ key.scope.allowedActions ≠ [] := by
  rw [ScopesAgree, h.takesFastPath_iff, h.approved_authorize_iff]
  by_cases hempty : key.scope.allowedActions = []
  · simp [hempty]
  · simp [hempty]

def drawer : ContractAccount := ⟨.contract (Vector.replicate 32 3)⟩

def draw : GameAction := { systemName := symbolShort "draw", data := [] }

-- A session for two operations before time 9.
def keyFor (allowedActions : List Symbol) : SessionKey :=
  { keyId := Vector.replicate 32 4
    scope := { allowedActions, maxOperations := 2, expiresAt := 9 }
    createdAt := 0
    operationsUsed := 0 }

def drawerEnv (allowedActions : List Symbol) : Env :=
  SessionStorage.store (Env.fresh 0) drawer.address (keyFor allowedActions)

theorem soleLiveKey_drawer (allowedActions : List Symbol) :
    drawer.SoleLiveKey (drawerEnv allowedActions) (keyFor allowedActions) where
  sole := SessionStorage.loadAll_store_self ..
  unexpired := Nat.succ_pos 8
  unexhausted := Nat.succ_pos 1

theorem scopes_agree_on_listed_action :
    drawer.ScopesAgree (drawerEnv [draw.systemName]) (keyFor [draw.systemName]) draw :=
  (scopes_agree_iff (soleLiveKey_drawer _) draw).mpr (List.cons_ne_nil _ _)

theorem empty_scope_read_two_ways :
    drawer.SoleLiveKey (drawerEnv []) (keyFor []) ∧ ¬drawer.ScopesAgree (drawerEnv []) (keyFor []) draw := by
  refine ⟨soleLiveKey_drawer [], fun hagree => ?_⟩
  have hfast := ((soleLiveKey_drawer []).takesFastPath_iff draw).mpr (Or.inl rfl)
  have happroved := ((soleLiveKey_drawer []).approved_authorize_iff draw).mp (hagree.mp hfast)
  exact List.not_mem_nil happroved

end ContractAccount

end Cougr.Accounts
