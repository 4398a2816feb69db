import Cougr.Accounts.Session

namespace Cougr.Accounts

-- The call leaves the environment as it is, the log of authorizations aside.
def OnlyLogs {α : Type} (env : Env) (outcome : Outcome α) : Prop :=
  ∀ result env', outcome = some (result, env') → ∃ log, env' = { env with authLog := log }

theorem onlyLogs_here {α : Type} (env : Env) (result : Except AccountError α) :
    OnlyLogs env (some (result, env)) := by
  intro result' env' h
  cases h
  exact ⟨env.authLog, rfl⟩

theorem onlyLogs_requireAuth (env : Env) (address : Address) :
    OnlyLogs (α := Unit) env ((env.requireAuth address).map fun env => (.ok (), env)) := by
  intro result env' h
  unfold Env.requireAuth at h
  split_ifs at h
  · cases h
    exact ⟨_, rfl⟩
  · cases h

theorem onlyLogs_authorize (self : ContractAccount) (env : Env) (action : GameAction) :
    OnlyLogs env (self.authorize env action) := by
  unfold ContractAccount.authorize
  dsimp only
  split_ifs
  · exact onlyLogs_here env _
  · exact onlyLogs_requireAuth env self.address

theorem onlyLogs_withFallback (self : ContractAccount) (env : Env) (action : GameAction)
    (session : Option SessionKey) : OnlyLogs env (authorizeWithFallback env self action session) := by
  unfold authorizeWithFallback
  split
  · split_ifs
    · exact onlyLogs_here env _
    · exact onlyLogs_authorize self env action
  · exact onlyLogs_authorize self env action

theorem onlyLogs_eachAction {authorizeOne : Env → GameAction → Outcome Unit}
    (hone : ∀ env action, OnlyLogs env (authorizeOne env action)) (actions : List GameAction)
    (env : Env) : OnlyLogs env (eachAction authorizeOne env actions) := by
  induction actions generalizing env with
  | nil => exact onlyLogs_here env _
  | cons action actions ih =>
      intro result env' h
      unfold eachAction at h
      split at h
      · rename_i next hnext
        obtain ⟨log, rfl⟩ := hone env action _ _ hnext
        obtain ⟨log', rfl⟩ := ih _ result env' h
        exact ⟨log', rfl⟩
      · rename_i error next hnext
        cases h
        exact hone env action _ _ hnext
      · cases h

theorem foldl_add_actions (actions : List GameAction) (builder : BatchBuilder) :
    (actions.foldl BatchBuilder.add builder).actions = builder.actions ++ actions := by
  induction actions generalizing builder with
  | nil => simp
  | cons action actions ih => simp [ih, BatchBuilder.add]

-- A contract account can batch, and the batch is the same loop over the same actions.
theorem batchOrSequential_eq (self : ContractAccount) (env : Env) (actions : List GameAction) :
    batchOrSequential env self actions =
      if actions.isEmpty then some (.error .BatchEmpty, env)
      else eachAction self.authorize env actions := by
  have hactions : (actions.foldl BatchBuilder.add BatchBuilder.new).actions = actions := by
    simp [foldl_add_actions, BatchBuilder.new]
  have hauthorize : (CougrAccount.authorize self : Env → GameAction → Outcome Unit) = self.authorize := rfl
  have hbatch : (CougrAccount.capabilities self).canBatch = true := rfl
  unfold batchOrSequential BatchBuilder.execute
  rw [hactions, hauthorize, if_pos hbatch]
  by_cases hempty : actions.isEmpty
  · rw [if_pos hempty, if_pos hempty]
  · rw [if_neg hempty, if_neg hempty, if_neg hempty]
    cases eachAction self.authorize env actions with
    | none => rfl
    | some pair =>
        obtain ⟨result, env'⟩ := pair
        cases result <;> rfl

theorem onlyLogs_batchOrSequential (self : ContractAccount) (env : Env) (actions : List GameAction) :
    OnlyLogs env (batchOrSequential env self actions) := by
  rw [batchOrSequential_eq]
  split_ifs
  · exact onlyLogs_here env _
  · exact onlyLogs_eachAction (onlyLogs_authorize self) actions env

namespace SessionState

theorem keys_settle_of_onlyLogs {α : Type} (state : SessionState) {outcome : Outcome α}
    (h : OnlyLogs state.env outcome) : (state.settle outcome).keys = state.keys := by
  cases outcome with
  | none => rfl
  | some pair =>
      obtain ⟨result, env'⟩ := pair
      obtain ⟨log, rfl⟩ := h result env' rfl
      rfl

theorem mem_keys_createSession (state : SessionState) (scope : SessionScope) {key : SessionKey}
    (hkey : key ∈ SessionStorage.loadAll (state.account.createSession state.env scope).2
      state.account.address) : key.scope = scope ∨ key ∈ state.keys := by
  rw [ContractAccount.createSession, SessionStorage.loadAll_store_self] at hkey
  rcases List.mem_append.mp hkey with hold | hnew
  · exact Or.inr (List.mem_of_mem_filter hold)
  · rw [List.mem_singleton.mp hnew]
    exact Or.inl rfl

theorem keys_revokeSession (state : SessionState) (keyId : BytesN 32) :
    (state.step (.revokeSession keyId)).keys = KeyedList.removeKey SessionKey.keyId keyId state.keys := by
  have hremoved := SessionStorage.loadAll_remove_self state.env state.account.address keyId
  simp only [keys, step, ContractAccount.revokeSession]
  cases hcall : SessionStorage.remove state.env state.account.address keyId with
  | mk found env' =>
      rw [hcall] at hremoved
      cases found <;> exact hremoved

theorem keys_cleanupExpired (state : SessionState) : (state.step .cleanupExpired).keys =
    state.keys.filter fun key => ¬key.scope.expiresAt ≤ state.env.timestamp :=
  SessionStorage.loadAll_cleanupExpired_self ..

theorem mem_keys_incrementUsage (state : SessionState) (keyId : BytesN 32) {key : SessionKey}
    (hkey : key ∈ (state.step (.incrementUsage keyId)).keys) :
    ∃ old ∈ state.keys, old.keyId = key.keyId ∧ old.scope = key.scope := by
  simp only [step] at hkey
  cases hcall : SessionStorage.incrementUsage state.env state.account.address keyId with
  | none =>
      rw [hcall] at hkey
      exact ⟨key, hkey, rfl, rfl⟩
  | some pair =>
      rw [hcall] at hkey
      obtain ⟨old, hold, hid, hscope⟩ := SessionStorage.mem_loadAll_incrementUsage hcall hkey
      exact ⟨old, hold, hid.symm, hscope.symm⟩

-- The operations that store a key with the given scope.
def Creates (op : SessionOp) (scope : SessionScope) : Prop :=
  op = .startSession scope ∨ op = .createSession scope

-- A stored key was just created, or it was stored before the step, possibly with less
-- usage counted, and the step has not revoked it.
theorem mem_keys_step (state : SessionState) (op : SessionOp) {key : SessionKey}
    (hkey : key ∈ (state.step op).keys) :
    Creates op key.scope ∨
      (∃ old ∈ state.keys, old.keyId = key.keyId ∧ old.scope = key.scope) ∧
        op ≠ .revokeSession key.keyId := by
  have hkept : key ∈ state.keys →
      ∃ old ∈ state.keys, old.keyId = key.keyId ∧ old.scope = key.scope :=
    fun hold => ⟨key, hold, rfl, rfl⟩
  cases op with
  | startSession scope =>
      rcases mem_keys_createSession state scope hkey with rfl | hold
      · exact Or.inl (Or.inl rfl)
      · exact Or.inr ⟨hkept hold, nofun⟩
  | createSession scope =>
      rcases mem_keys_createSession state scope hkey with rfl | hold
      · exact Or.inl (Or.inr rfl)
      · exact Or.inr ⟨hkept hold, nofun⟩
  | invoke timestamp authorized => exact Or.inr ⟨hkept hkey, nofun⟩
  | setSession session => exact Or.inr ⟨hkept hkey, nofun⟩
  | endSession => exact Or.inr ⟨hkept hkey, nofun⟩
  | incrementUsage keyId => exact Or.inr ⟨mem_keys_incrementUsage state keyId hkey, nofun⟩
  | revokeSession keyId =>
      rw [keys_revokeSession] at hkey
      obtain ⟨hold, hne⟩ := List.mem_filter.mp hkey
      refine Or.inr ⟨hkept hold, ?_⟩
      intro hsame
      cases hsame
      simp at hne
  | cleanupExpired =>
      rw [keys_cleanupExpired] at hkey
      exact Or.inr ⟨hkept (List.mem_of_mem_filter hkey), nofun⟩
  | executeAuthorized action =>
      have hsame := keys_settle_of_onlyLogs state
        (onlyLogs_withFallback state.account state.env action state.game.activeSession)
      exact Or.inr ⟨hkept (hsame ▸ hkey), nofun⟩
  | batchExecute actions =>
      have hsame := keys_settle_of_onlyLogs state (onlyLogs_eachAction
        (fun env action => onlyLogs_withFallback state.account env action state.game.activeSession)
        actions state.env)
      exact Or.inr ⟨hkept (hsame ▸ hkey), nofun⟩
  | authorize action =>
      have hsame := keys_settle_of_onlyLogs state (onlyLogs_authorize state.account state.env action)
      exact Or.inr ⟨hkept (hsame ▸ hkey), nofun⟩
  | batchOrSequential actions =>
      have hsame := keys_settle_of_onlyLogs state
        (onlyLogs_batchOrSequential state.account state.env actions)
      exact Or.inr ⟨hkept (hsame ▸ hkey), nofun⟩

-- A session of this scope was created in the run and its id has not been revoked since.
def CreatedAndKept (ops : List SessionOp) (keyId : BytesN 32) (scope : SessionScope) : Prop :=
  ∃ past op rest, ops = past ++ op :: rest ∧ Creates op scope ∧ .revokeSession keyId ∉ rest

theorem keys_created_and_kept {start : SessionState} (hnone : start.keys = []) (ops : List SessionOp)
    {key : SessionKey} (hkey : key ∈ (Transition.run step start ops).keys) :
    CreatedAndKept ops key.keyId key.scope := by
  obtain ⟨past, op, rest, rfl, hcreates, hkept⟩ := Transition.run_provenance
    (fun (state : SessionState) (item : BytesN 32 × SessionScope) =>
      ∃ key ∈ state.keys, key.keyId = item.1 ∧ key.scope = item.2)
    (fun _ op item => Creates op item.2)
    (fun _ op item => op = .revokeSession item.1)
    (by simp [hnone])
    (by
      rintro state op ⟨_, _⟩ ⟨key, hkey, rfl, rfl⟩
      exact mem_keys_step state op hkey)
    ops (key.keyId, key.scope) ⟨key, hkey, rfl, rfl⟩
  refine ⟨past, op, rest, rfl, hcreates, fun hrevoke => ?_⟩
  obtain ⟨before, after, rfl⟩ := List.append_of_mem hrevoke
  exact ((Transition.stepsMeet_append ..).mp hkept).2.1 rfl

end SessionState

-- Of the stored keys that list the action and have operations left, not all have expired.
def ContractAccount.NotOnlyExpired (self : ContractAccount) (env : Env) (action : GameAction) : Prop :=
  self.CoveringKeyStored env action →
    ∃ key ∈ SessionStorage.loadAll env self.address,
      covers key action ∧ env.timestamp < key.scope.expiresAt

theorem ContractAccount.liveKeyStored_iff (self : ContractAccount) (env : Env) (action : GameAction) :
    self.LiveKeyStored env action ↔ ∃ key ∈ SessionStorage.loadAll env self.address,
      covers key action ∧ env.timestamp < key.scope.expiresAt := by
  unfold LiveKeyStored
  simp only [validateSession_eq_true_iff, covers, Bool.and_eq_true, decide_eq_true_eq]
  constructor
  · rintro ⟨key, hmem, hlists, hfresh, hleft⟩
    exact ⟨key, hmem, ⟨hlists, hleft⟩, hfresh⟩
  · rintro ⟨key, hmem, ⟨hlists, hleft⟩, hfresh⟩
    exact ⟨key, hmem, hlists, hfresh, hleft⟩

-- A call that is approved without an authorization has a live stored key behind it.
def BackedByLiveKey (self : ContractAccount) (env : Env) (action : GameAction)
    (outcome : Outcome Unit) : Prop :=
  ApprovedWithoutAuth env outcome → self.LiveKeyStored env action

theorem backed_authorize_iff (self : ContractAccount) (env : Env) (action : GameAction) :
    BackedByLiveKey self env action (self.authorize env action) ↔ self.NotOnlyExpired env action := by
  unfold BackedByLiveKey ContractAccount.NotOnlyExpired
  rw [ContractAccount.approved_authorize_iff, ContractAccount.liveKeyStored_iff]

theorem executeAuthorized_of_not_locallyValid (game : GameWorld ContractAccount) (env : Env)
    (action : GameAction) (hslow : ∀ key, game.activeSession = some key → ¬LocallyValid env action key) :
    game.executeAuthorized env action = game.account.authorize env action := by
  unfold GameWorld.executeAuthorized authorizeWithFallback
  cases hsession : game.activeSession with
  | none => rfl
  | some key => exact if_neg fun h => hslow key hsession h.2

-- In any state of any run, the checks of the stored keys alone approve a stale session
-- exactly when every covering key has expired.
theorem session_run_backed_iff (start : SessionState) (ops : List SessionOp) :
    let state := Transition.run SessionState.step start ops
    (∀ action, BackedByLiveKey state.account state.env action (state.account.authorize state.env action) ↔
      state.account.NotOnlyExpired state.env action) ∧
    (∀ action, (∀ key, state.game.activeSession = some key → ¬LocallyValid state.env action key) →
      (BackedByLiveKey state.account state.env action (state.game.executeAuthorized state.env action) ↔
        state.account.NotOnlyExpired state.env action)) ∧
    ((∀ key ∈ state.keys, key.scope.expiresAt ≤ state.env.timestamp) → ∀ action,
      (¬ApprovedWithoutAuth state.env (state.account.authorize state.env action) ↔
        state.account.NotOnlyExpired state.env action) ∧
      ((∀ key, state.game.activeSession = some key → ¬LocallyValid state.env action key) →
        (¬ApprovedWithoutAuth state.env (state.game.executeAuthorized state.env action) ↔
          state.account.NotOnlyExpired state.env action))) := by
  intro state
  have hbacked := backed_authorize_iff state.account state.env
  refine ⟨hbacked, ?_, ?_⟩
  · intro action hslow
    rw [executeAuthorized_of_not_locallyValid state.game state.env action hslow]
    exact hbacked action
  · intro hexpired action
    have hdead : ¬state.account.LiveKeyStored state.env action := by
      rw [ContractAccount.liveKeyStored_iff]
      rintro ⟨key, hkey, _, hfresh⟩
      exact absurd (hexpired key hkey) (by omega)
    have hsilent : ¬ApprovedWithoutAuth state.env (state.account.authorize state.env action) ↔
        state.account.NotOnlyExpired state.env action := by
      rw [← hbacked action]
      exact ⟨fun h happroved => absurd happroved h, fun h happroved => hdead (h happroved)⟩
    refine ⟨hsilent, fun hslow => ?_⟩
    rw [executeAuthorized_of_not_locallyValid state.game state.env action hslow]
    exact hsilent

def mover : ContractAccount := ⟨.contract (Vector.replicate 32 7)⟩

def move : GameAction := { systemName := symbolShort "move", data := [] }

-- A session for one move before time 5.
def oneMove : SessionScope := { allowedActions := [move.systemName], maxOperations := 1, expiresAt := 5 }

def expiredEnv : Env := (mover.createSession (Env.fresh 0) oneMove).2.atTime 10

theorem expired_session_authorizes :
    ¬BackedByLiveKey mover expiredEnv move (mover.authorize expiredEnv move) := by
  rw [backed_authorize_iff]
  unfold ContractAccount.NotOnlyExpired ContractAccount.CoveringKeyStored
  decide

-- The handed-over key is stored for the account under its id, allows the action there, has
-- operations left and is not expired.
def BackedByOwnKey (self : ContractAccount) (env : Env) (action : GameAction) (session : SessionKey) :
    Prop :=
  ∃ key ∈ SessionStorage.loadAll env self.address, key.keyId = session.keyId ∧
    isActionAllowed key.scope action.systemName ∧
    key.operationsUsed < key.scope.maxOperations ∧ env.timestamp < key.scope.expiresAt

-- A key that nobody created.
def forgedKey : SessionKey :=
  { keyId := Vector.replicate 32 1, scope := oneMove, createdAt := 0, operationsUsed := 0 }

-- The fallback believes the copy it is handed.
theorem forged_session_approves :
    ¬(ApprovedWithoutAuth (Env.fresh 0) (authorizeWithFallback (Env.fresh 0) mover move (some forgedKey)) →
      BackedByOwnKey mover (Env.fresh 0) move forgedKey) := by
  rw [ContractAccount.approved_withFallback_iff]
  intro hbacked
  obtain ⟨key, hkey, _⟩ := hbacked (Or.inl ⟨_, rfl, by unfold LocallyValid; decide⟩)
  have hnone : SessionStorage.loadAll (Env.fresh 0) mover.address = [] := rfl
  rw [hnone] at hkey
  cases hkey

-- A silent approval comes from the copy that was handed over, by its local check, or from a
-- stored key that lists the action and has operations left. In a run that starts without
-- sessions such a stored key was created for the account and not revoked since.
theorem approved_by_copy_or_kept_key :
    (∀ (self : ContractAccount) (env : Env) (action : GameAction) (session : Option SessionKey),
      ApprovedWithoutAuth env (authorizeWithFallback env self action session) →
        (∃ key, session = some key ∧ LocallyValid env action key) ∨
          self.CoveringKeyStored env action) ∧
    ∀ (start : SessionState), start.keys = [] → ∀ (ops : List SessionOp) (action : GameAction),
      let state := Transition.run SessionState.step start ops
      ApprovedWithoutAuth state.env (state.game.executeAuthorized state.env action) →
        (∃ key, state.game.activeSession = some key ∧ LocallyValid state.env action key) ∨
          ∃ key ∈ state.keys, ContractAccount.covers key action ∧
            SessionState.CreatedAndKept ops key.keyId key.scope := by
  constructor
  · intro self env action session
    exact (ContractAccount.approved_withFallback_iff self env action session).mp
  · intro start hnone ops action state happroved
    rcases (ContractAccount.approved_withFallback_iff _ _ action _).mp happroved with hcopy | hstored
    · exact Or.inl hcopy
    · obtain ⟨key, hkey, hcovers⟩ := hstored
      exact Or.inr ⟨key, hkey, hcovers, SessionState.keys_created_and_kept hnone ops hkey⟩

theorem kept_key_approves :
    let start : SessionState := { env := Env.fresh 0, game := GameWorld.new SimpleWorld.new mover }
    let ops : List SessionOp := [.createSession oneMove]
    ∃ key ∈ (Transition.run SessionState.step start ops).keys,
      ContractAccount.covers key move ∧ SessionState.CreatedAndKept ops key.keyId key.scope := by
  intro start ops
  have happroved := (ContractAccount.approved_withFallback_iff
    (Transition.run SessionState.step start ops).account
    (Transition.run SessionState.step start ops).env move none).mpr
    (Or.inr (by unfold ContractAccount.CoveringKeyStored; decide))
  rcases approved_by_copy_or_kept_key.2 start (by decide) ops move happroved with ⟨key, hsession, _⟩ | hkept
  · cases hsession
  · exact hkept

end Cougr.Accounts
