import Cougr.Accounts.Authorize
import Cougr.Accounts.Secp256r1
import Cougr.Library.Transition

namespace Cougr.Accounts.SessionStorage

open KeyedList Transition

-- One key per id, in every account.
def Distinct (env : Env) : Prop := ∀ account, ((loadAll env account).map SessionKey.keyId).Nodup

section Operations

variable (env : Env) (account other : Address)

theorem loadAll_set_of_ne (keys : List SessionKey) (h : other ≠ account) :
    loadAll (env.set (.sessKeys account) keys) other = loadAll env other := by
  rw [loadAll, Env.get_set_of_ne _ _ (by simpa using h)]
  rfl

theorem loadAll_erase_of_ne (h : other ≠ account) :
    loadAll (env.remove (.sessKeys account)) other = loadAll env other := by
  rw [loadAll, Env.get_remove_of_ne _ (by simpa using h)]
  rfl

theorem loadAll_writeKeys_of_ne (keys : List SessionKey) (h : other ≠ account) :
    loadAll (writeKeys env account keys) other = loadAll env other := by
  unfold writeKeys
  split_ifs
  · exact loadAll_erase_of_ne env account other h
  · exact loadAll_set_of_ne env account other keys h

theorem loadAll_store (key : SessionKey) :
    loadAll (store env account key) other =
      if other = account then removeKey SessionKey.keyId key.keyId (loadAll env account) ++ [key]
      else loadAll env other := by
  split_ifs with h
  · rw [h]
    exact loadAll_store_self env account key
  · exact loadAll_set_of_ne env account other _ h

theorem loadAll_remove (keyId : BytesN 32) :
    loadAll (remove env account keyId).2 other =
      if other = account then removeKey SessionKey.keyId keyId (loadAll env account)
      else loadAll env other := by
  split_ifs with h
  · rw [h]
    exact loadAll_remove_self env account keyId
  · unfold remove
    dsimp only
    split_ifs
    · exact loadAll_writeKeys_of_ne env account other _ h
    · rfl

theorem loadAll_cleanupExpired :
    loadAll (cleanupExpired env account).2 other =
      if other = account then (loadAll env account).filter fun key => ¬key.scope.expiresAt ≤ env.timestamp
      else loadAll env other := by
  split_ifs with h
  · rw [h]
    exact loadAll_cleanupExpired_self env account
  · unfold cleanupExpired
    dsimp only
    split_ifs
    · exact loadAll_writeKeys_of_ne env account other _ h
    · rfl

-- The call succeeds.
def counts (keyId : BytesN 32) : Bool :=
  match incrementUsage env account keyId with
  | some (.ok (), _) => true
  | _ => false

-- What a call of `increment_usage` leaves; a trap is rolled back.
def afterIncrement (keyId : BytesN 32) : Env :=
  match incrementUsage env account keyId with
  | some (_, env) => env
  | none => env

theorem incrementUsage_cases (keyId : BytesN 32) :
    counts env account keyId = true ∧
        (∃ key ∈ loadAll env account, key.keyId = keyId) ∧
        (∀ key ∈ loadAll env account, HasRoom keyId key) ∧
        afterIncrement env account keyId =
          env.set (.sessKeys account) ((loadAll env account).map (counted keyId)) ∨
      counts env account keyId = false ∧ afterIncrement env account keyId = env ∧
        ((∃ key ∈ loadAll env account, key.keyId = keyId) →
          ∃ key ∈ loadAll env account, ¬HasRoom keyId key) := by
  unfold counts afterIncrement incrementUsage
  simp only [bumpAll_eq]
  by_cases hroom : ∀ key ∈ loadAll env account, HasRoom keyId key
  · rw [if_pos hroom]
    dsimp only
    split_ifs with hfound
    · rw [List.any_eq_true] at hfound
      obtain ⟨key, hkey, hid⟩ := hfound
      exact Or.inl ⟨rfl, ⟨key, hkey, by simpa using hid⟩, hroom, rfl⟩
    · rw [List.any_eq_true] at hfound
      refine Or.inr ⟨rfl, rfl, fun hthere => ?_⟩
      obtain ⟨key, hkey, hid⟩ := hthere
      exact absurd ⟨key, hkey, by simpa using hid⟩ hfound
  · rw [if_neg hroom]
    refine Or.inr ⟨rfl, rfl, fun _ => ?_⟩
    simpa only [not_forall, exists_prop] using hroom

theorem loadAll_afterIncrement (keyId : BytesN 32) :
    loadAll (afterIncrement env account keyId) other =
      if other = account ∧ counts env account keyId then (loadAll env account).map (counted keyId)
      else loadAll env other := by
  rcases incrementUsage_cases env account keyId with ⟨hcounts, _, _, hafter⟩ | ⟨hcounts, hafter, _⟩
  · rw [hcounts, hafter]
    by_cases h : other = account
    · rw [if_pos ⟨h, rfl⟩, h]
      exact loadAll_set_self env account _
    · rw [if_neg fun heq => h heq.1]
      exact loadAll_set_of_ne env account other _ h
  · rw [hcounts, hafter, if_neg fun heq => Bool.false_ne_true heq.2]

end Operations

inductive Op where
  | invoke (timestamp : Nat)
  | store (account : Address) (key : SessionKey)
  | remove (account : Address) (keyId : BytesN 32)
  | incrementUsage (account : Address) (keyId : BytesN 32)
  | cleanupExpired (account : Address)

def step (env : Env) : Op → Env
  | .invoke timestamp => env.atTime timestamp
  | .store account key => store env account key
  | .remove account keyId => (remove env account keyId).2
  | .incrementUsage account keyId => afterIncrement env account keyId
  | .cleanupExpired account => (cleanupExpired env account).2

theorem distinct_step {env : Env} (h : Distinct env) (op : Op) : Distinct (step env op) := by
  intro other
  have hother := h other
  cases op with
  | invoke timestamp => exact hother
  | store account key =>
      rw [step, loadAll_store]
      split_ifs
      · exact nodup_removeKey_concat (h account) key
      · exact hother
  | remove account keyId =>
      rw [step, loadAll_remove]
      split_ifs
      · exact nodup_filter (h account) _
      · exact hother
  | incrementUsage account keyId =>
      rw [step, loadAll_afterIncrement]
      split_ifs
      · have hkeys : SessionKey.keyId ∘ counted keyId = SessionKey.keyId := funext (counted_keyId keyId)
        rw [List.map_map, hkeys]
        exact h account
      · exact hother
  | cleanupExpired account =>
      rw [step, loadAll_cleanupExpired]
      split_ifs
      · exact nodup_filter (h account) _
      · exact hother

section Load

variable (account : Address) (keyId : BytesN 32)

-- The key that an operation stores under this id of this account.
def stored : Op → Option SessionKey
  | .invoke _ => none
  | .store account' key => if account' = account ∧ key.keyId = keyId then some key else none
  | .remove _ _ => none
  | .incrementUsage _ _ => none
  | .cleanupExpired _ => none

-- What an operation makes of the key that is there: a successful count raises its usage, a removal or
-- a cleanup after its time drops it.
def handOn (env : Env) (op : Op) (key : SessionKey) : Option SessionKey :=
  match op with
  | .remove account' keyId' => if account' = account ∧ keyId' = keyId then none else some key
  | .incrementUsage account' keyId' =>
    if account' = account ∧ keyId' = keyId ∧ counts env account keyId then
      some { key with operationsUsed := key.operationsUsed + 1 }
    else some key
  | .cleanupExpired account' =>
    if account' = account ∧ key.scope.expiresAt ≤ env.timestamp then none else some key
  | _ => some key

theorem load_store (env : Env) (account' : Address) (key : SessionKey) :
    load (store env account' key) account keyId =
      if account' = account ∧ key.keyId = keyId then some key else load env account keyId := by
  rw [load, loadAll_store]
  by_cases haccount : account = account'
  · subst haccount
    rw [if_pos rfl, lookup_removeKey_concat]
    simp only [true_and, eq_comm (a := keyId)]
    rfl
  · rw [if_neg haccount, if_neg fun h => haccount h.1.symm]
    rfl

theorem load_remove (env : Env) (account' : Address) (keyId' : BytesN 32) :
    load (remove env account' keyId').2 account keyId =
      if account' = account ∧ keyId' = keyId then none else load env account keyId := by
  rw [load, loadAll_remove]
  by_cases haccount : account = account'
  · subst haccount
    rw [if_pos rfl, lookup_removeKey]
    simp only [true_and, eq_comm (a := keyId)]
    rfl
  · rw [if_neg haccount, if_neg fun h => haccount h.1.symm]
    rfl

theorem load_afterIncrement {env : Env} (h : Distinct env) (account' : Address) (keyId' : BytesN 32) :
    load (afterIncrement env account' keyId') account keyId =
      if account' = account ∧ keyId' = keyId ∧ counts env account keyId then
        (load env account keyId).map fun key => { key with operationsUsed := key.operationsUsed + 1 }
      else load env account keyId := by
  rw [load, loadAll_afterIncrement]
  by_cases hcounts : account = account' ∧ counts env account' keyId' = true
  · obtain ⟨rfl, hcounts⟩ := hcounts
    rw [if_pos ⟨rfl, hcounts⟩, lookup_map (counted_keyId keyId')]
    cases hload : lookup SessionKey.keyId keyId (loadAll env account) with
    | none => simp [load, hload]
    | some key =>
        have hid := ((lookup_eq_some_iff (h account)).mp hload).2
        by_cases hkey : keyId' = keyId
        · subst hkey
          simp [load, hload, hcounts, counted, hid]
        · simp [load, hload, hkey, counted, hid, Ne.symm hkey]
  · have hidle : ¬(account' = account ∧ keyId' = keyId ∧ counts env account keyId = true) := by
      rintro ⟨rfl, rfl, htrue⟩
      exact hcounts ⟨rfl, htrue⟩
    rw [if_neg hcounts, if_neg hidle]
    rfl

theorem load_cleanupExpired {env : Env} (h : Distinct env) (account' : Address) :
    load (cleanupExpired env account').2 account keyId =
      if account' = account then (load env account keyId).filter fun key => ¬key.scope.expiresAt ≤ env.timestamp
      else load env account keyId := by
  rw [load, loadAll_cleanupExpired]
  by_cases haccount : account = account'
  · subst haccount
    rw [if_pos rfl, if_pos rfl, lookup_filter_of_nodup (h account)]
    rfl
  · rw [if_neg haccount, if_neg (Ne.symm haccount)]
    rfl

theorem load_step {env : Env} (h : Distinct env) (op : Op) :
    load (step env op) account keyId =
      (stored account keyId op).or ((load env account keyId).bind (handOn account keyId env op)) := by
  cases op with
  | invoke timestamp =>
      change load env account keyId = _
      cases load env account keyId <;> rfl
  | store account' key =>
      rw [step, load_store, stored]
      split_ifs
      · rfl
      · cases load env account keyId <;> rfl
  | remove account' keyId' =>
      rw [step, load_remove]
      cases load env account keyId <;> simp [stored, handOn]
  | incrementUsage account' keyId' =>
      rw [step, load_afterIncrement account keyId h]
      by_cases hcounted : account' = account ∧ keyId' = keyId ∧ counts env account keyId = true
      · rw [if_pos hcounted]
        cases load env account keyId <;> simp [stored, handOn, hcounted]
      · rw [if_neg hcounted]
        cases load env account keyId <;> simp [stored, handOn, if_neg hcounted]
  | cleanupExpired account' =>
      rw [step, load_cleanupExpired account keyId h]
      cases load env account keyId with
      | none => simp [stored]
      | some key =>
          by_cases haccount : account' = account
          · by_cases hexpired : key.scope.expiresAt ≤ env.timestamp <;>
              simp [stored, handOn, haccount, hexpired, Option.filter]
          · simp [stored, handOn, haccount]

-- The key is removed, or cleaned up at or after its time.
def Lost (expiresAt : Nat) (env : Env) : Op → Prop
  | .remove account' keyId' => account' = account ∧ keyId' = keyId
  | .cleanupExpired account' => account' = account ∧ expiresAt ≤ env.timestamp
  | _ => False

def countsKey (env : Env) : Op → Bool
  | .incrementUsage account' keyId' => account' = account && keyId' = keyId && counts env account keyId
  | _ => false

def used (key : SessionKey) (n : Nat) : SessionKey := { key with operationsUsed := key.operationsUsed + n }

theorem used_zero (key : SessionKey) : used key 0 = key := rfl

theorem used_used (key : SessionKey) (m n : Nat) : used (used key m) n = used key (m + n) := by
  simp only [used, Nat.add_assoc]

-- How often a run counts usage of the key.
def usages : Env → List Op → Nat
  | _, [] => 0
  | env, op :: ops => (if countsKey account keyId env op then 1 else 0) + usages (step env op) ops

theorem handOn_of_lost {env : Env} {op : Op} {key : SessionKey}
    (hlost : Lost account keyId key.scope.expiresAt env op) : handOn account keyId env op key = none := by
  cases op with
  | invoke timestamp => exact absurd hlost id
  | store account' key' => exact absurd hlost id
  | remove account' keyId' => exact if_pos hlost
  | incrementUsage account' keyId' => exact absurd hlost id
  | cleanupExpired account' => exact if_pos hlost

theorem handOn_of_kept {env : Env} {op : Op} {key : SessionKey}
    (hkept : ¬Lost account keyId key.scope.expiresAt env op) :
    handOn account keyId env op key = some (used key (if countsKey account keyId env op then 1 else 0)) := by
  cases op with
  | invoke timestamp => rfl
  | store account' key' => rfl
  | remove account' keyId' => exact if_neg hkept
  | incrementUsage account' keyId' =>
      have hiff : countsKey account keyId env (.incrementUsage account' keyId') = true ↔
          account' = account ∧ keyId' = keyId ∧ counts env account keyId = true := by
        simp [countsKey, and_assoc]
      simp only [handOn, ← hiff]
      split_ifs <;> rfl
  | cleanupExpired account' => exact if_neg hkept

-- What is handed on along a run is the stored key with its usage raised by each successful count.
theorem carry_handOn (env : Env) (ops : List Op) (key final : SessionKey) :
    carry step (handOn account keyId) env ops key = some final ↔
      StepsMeet step (fun env op => ¬Lost account keyId key.scope.expiresAt env op) env ops ∧
        final = used key (usages account keyId env ops) := by
  induction ops generalizing env key with
  | nil => simp [carry, StepsMeet, usages, used_zero, eq_comm]
  | cons op ops ih =>
      rw [carry]
      by_cases hlost : Lost account keyId key.scope.expiresAt env op
      · rw [handOn_of_lost account keyId hlost]
        exact iff_of_false (Option.some_ne_none final).symm fun h => h.1.1 hlost
      · rw [handOn_of_kept account keyId hlost, Option.bind_some, ih, used_used]
        exact and_congr_left' (and_iff_right hlost).symm

end Load

section Results

variable (env : Env) (account : Address) (keyId : BytesN 32)

theorem remove_fst : (remove env account keyId).1 = (load env account keyId).isSome := by
  rw [load, ← any_eq_isSome_lookup]
  unfold remove
  dsimp only
  cases (loadAll env account).any fun key => key.keyId = keyId <;> rfl

theorem counts_iff (h : Distinct env)
    (hroom : ∀ key, load env account keyId = some key → key.operationsUsed < u32Max) :
    counts env account keyId = true ↔ (load env account keyId).isSome := by
  rw [load, lookup_isSome_iff]
  rcases incrementUsage_cases env account keyId with ⟨hcounts, hthere, _, _⟩ | ⟨hcounts, _, hfull⟩
  · exact iff_of_true hcounts hthere
  · rw [hcounts]
    refine iff_of_false Bool.false_ne_true fun hthere => ?_
    obtain ⟨key, hkey, hnoroom⟩ := hfull hthere
    apply hnoroom
    intro hid
    exact hroom key ((lookup_eq_some_iff (h account)).mpr ⟨hkey, hid⟩)

theorem cleanupExpired_fst : (cleanupExpired env account).1 =
    (loadAll env account).countP fun key => key.scope.expiresAt ≤ env.timestamp := by
  unfold cleanupExpired
  dsimp only
  split_ifs <;> rfl

end Results

def Op.account : Op → Option Address
  | .invoke _ => none
  | .store account _ => some account
  | .remove account _ => some account
  | .incrementUsage account _ => some account
  | .cleanupExpired account => some account

theorem loadAll_step_of_ne (env : Env) (op : Op) {account : Address} (h : op.account ≠ some account) :
    loadAll (step env op) account = loadAll env account := by
  have hne : ∀ other, op.account = some other → account ≠ other := by
    rintro other hother rfl
    exact h hother
  cases op with
  | invoke timestamp => rfl
  | store other key => rw [step, loadAll_store, if_neg (hne other rfl)]
  | remove other keyId => rw [step, loadAll_remove, if_neg (hne other rfl)]
  | incrementUsage other keyId =>
      rw [step, loadAll_afterIncrement, if_neg fun heq => hne other rfl heq.1]
  | cleanupExpired other => rw [step, loadAll_cleanupExpired, if_neg (hne other rfl)]

def envAfter (timestamp : Nat) (ops : List Op) : Env := run step (Env.fresh timestamp) ops

-- From empty storage on, each account keeps a map from ids to keys. A key is there from its last store on
-- until it is removed or cleaned up, with its usage counted.
structure KeepsMap (timestamp : Nat) (ops : List Op) : Prop where
  distinct : ∀ account, ((loadAll (envAfter timestamp ops) account).map SessionKey.keyId).Nodup
  load : ∀ account keyId key, load (envAfter timestamp ops) account keyId = some key ↔
    ∃ past source rest, ops = past ++ .store account source :: rest ∧ source.keyId = keyId ∧
      (∀ other ∈ rest, stored account keyId other = none) ∧
      StepsMeet step (fun env op => ¬Lost account keyId source.scope.expiresAt env op)
        (envAfter timestamp (past ++ [.store account source])) rest ∧
      key = used source (usages account keyId (envAfter timestamp (past ++ [.store account source])) rest)
  remove : ∀ account keyId, (remove (envAfter timestamp ops) account keyId).1 = true ↔
    (SessionStorage.load (envAfter timestamp ops) account keyId).isSome
  increment : ∀ account keyId, (∀ key, SessionStorage.load (envAfter timestamp ops) account keyId = some key →
      key.operationsUsed < u32Max) →
    ((∃ env, incrementUsage (envAfter timestamp ops) account keyId = some (.ok (), env)) ↔
      (SessionStorage.load (envAfter timestamp ops) account keyId).isSome)
  cleanup : ∀ account,
    (cleanupExpired (envAfter timestamp ops) account).1 = (loadAll (envAfter timestamp ops) account).countP
      (fun key => key.scope.expiresAt ≤ (envAfter timestamp ops).timestamp) ∧
    loadAll (cleanupExpired (envAfter timestamp ops) account).2 account =
      (loadAll (envAfter timestamp ops) account).filter
        (fun key => ¬key.scope.expiresAt ≤ (envAfter timestamp ops).timestamp) ∧
    ∀ (manager : ContractAccount) key, key.scope.expiresAt ≤ (envAfter timestamp ops).timestamp →
      manager.validateSession (envAfter timestamp ops) key = .ok false
  frame : ∀ op account keyId, op.account ≠ some account →
    SessionStorage.load (step (envAfter timestamp ops) op) account keyId =
      SessionStorage.load (envAfter timestamp ops) account keyId

theorem distinct_envAfter (timestamp : Nat) (ops : List Op) : Distinct (envAfter timestamp ops) := by
  have hempty : Distinct (Env.fresh timestamp) := fun account => List.nodup_nil
  exact run_invariant_of_step Distinct (fun _ op h => distinct_step h op) hempty ops

theorem load_envAfter (timestamp : Nat) (ops : List Op) (account : Address) (keyId : BytesN 32)
    (key : SessionKey) : load (envAfter timestamp ops) account keyId = some key ↔
      ∃ past source rest, ops = past ++ .store account source :: rest ∧ source.keyId = keyId ∧
        (∀ other ∈ rest, stored account keyId other = none) ∧
        StepsMeet step (fun env op => ¬Lost account keyId source.scope.expiresAt env op)
          (envAfter timestamp (past ++ [.store account source])) rest ∧
        key = used source (usages account keyId (envAfter timestamp (past ++ [.store account source])) rest) := by
  have hrun := @run_value_iff _ _ step _ (fun env => load env account keyId) (stored account keyId)
    (handOn account keyId) (Env.fresh timestamp) rfl
    (fun past op => load_step account keyId (distinct_envAfter timestamp past) op) ops key
  refine hrun.trans ?_
  simp only [carry_handOn]
  constructor
  · rintro ⟨past, input, rest, source, hsplit, hstored, hrest, hkept, hkey⟩
    cases input with
    | store account' source' =>
        simp only [stored] at hstored
        split_ifs at hstored with hhere
        obtain ⟨rfl, hid⟩ := hhere
        cases hstored
        exact ⟨past, source, rest, hsplit, hid, hrest, hkept, hkey⟩
    | invoke timestamp => exact absurd hstored (Option.some_ne_none _).symm
    | remove account' keyId' => exact absurd hstored (Option.some_ne_none _).symm
    | incrementUsage account' keyId' => exact absurd hstored (Option.some_ne_none _).symm
    | cleanupExpired account' => exact absurd hstored (Option.some_ne_none _).symm
  · intro hsource
    obtain ⟨past, source, rest, hsplit, hid, hrest, hkept, hkey⟩ := hsource
    exact ⟨past, .store account source, rest, source, hsplit, if_pos ⟨rfl, hid⟩, hrest, hkept, hkey⟩

theorem counts_eq_true_iff (env : Env) (account : Address) (keyId : BytesN 32) :
    counts env account keyId = true ↔ ∃ env', incrementUsage env account keyId = some (.ok (), env') := by
  unfold counts
  split
  · rename_i env' h
    exact iff_of_true rfl ⟨env', h⟩
  · rename_i h
    refine iff_of_false Bool.false_ne_true fun hsome => ?_
    obtain ⟨env', hok⟩ := hsome
    exact h env' hok

theorem keepsMap (timestamp : Nat) (ops : List Op) : KeepsMap timestamp ops where
  distinct := distinct_envAfter timestamp ops
  load := load_envAfter timestamp ops
  remove account keyId := by rw [remove_fst]
  increment account keyId hroom := by
    rw [← counts_eq_true_iff]
    exact counts_iff _ account keyId (distinct_envAfter timestamp ops) hroom
  cleanup account := by
    refine ⟨cleanupExpired_fst .., loadAll_cleanupExpired_self .., fun manager key hexpired => ?_⟩
    exact if_pos hexpired
  frame op account keyId h := by
    rw [SessionStorage.load, loadAll_step_of_ne _ op h]
    rfl

-- Both storages are maps of their accounts: the sessions by id, the passkeys by label.
theorem storages_keep_maps (timestamp : Nat) :
    (∀ ops, KeepsMap timestamp ops) ∧ ∀ ops, Secp256r1Storage.KeepsMap timestamp ops :=
  ⟨keepsMap timestamp, Secp256r1Storage.keepsMap timestamp⟩

end Cougr.Accounts.SessionStorage
