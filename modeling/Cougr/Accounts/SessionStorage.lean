import Cougr.Accounts.Env
import Cougr.Library.KeyedList

namespace Cougr.Accounts.SessionStorage

def loadAll (env : Env) (account : Address) : List SessionKey :=
  (env.get (.sessKeys account) : Option (List SessionKey)).getD []

def store (env : Env) (account : Address) (key : SessionKey) : Env :=
  let newKeys := KeyedList.removeKey SessionKey.keyId key.keyId (loadAll env account) ++ [key]
  env.set (.sessKeys account) newKeys

def load (env : Env) (account : Address) (keyId : BytesN 32) : Option SessionKey :=
  KeyedList.lookup SessionKey.keyId keyId (loadAll env account)

-- An account without keys has no entry at all.
def writeKeys (env : Env) (account : Address) (newKeys : List SessionKey) : Env :=
  if newKeys.isEmpty then env.remove (.sessKeys account) else env.set (.sessKeys account) newKeys

def remove (env : Env) (account : Address) (keyId : BytesN 32) : Bool × Env :=
  let keys := loadAll env account
  let found := keys.any fun key => key.keyId = keyId
  if found then
    (true, writeKeys env account (KeyedList.removeKey SessionKey.keyId keyId keys))
  else (false, env)

-- The loop body of `increment_usage`; `operations_used` is a `u32`.
def bump (keyId : BytesN 32) (key : SessionKey) : Option SessionKey :=
  if key.keyId = keyId then
    (checkedAdd u32Max key.operationsUsed 1).map fun used => { key with operationsUsed := used }
  else some key

def bumpAll (keyId : BytesN 32) : List SessionKey → Option (List SessionKey)
  | [] => some []
  | key :: keys => do
    let next ← bump keyId key
    let rest ← bumpAll keyId keys
    some (next :: rest)

def incrementUsage (env : Env) (account : Address) (keyId : BytesN 32) :
    Option (Except AccountError Unit × Env) :=
  let keys := loadAll env account
  match bumpAll keyId keys with
  | none => none
  | some newKeys =>
    if keys.any fun key => key.keyId = keyId then
      some (.ok (), env.set (.sessKeys account) newKeys)
    else some (.error .InvalidScope, env)

def cleanupExpired (env : Env) (account : Address) : Nat × Env :=
  let keys := loadAll env account
  let removed := keys.countP fun key => key.scope.expiresAt ≤ env.timestamp
  let newKeys := keys.filter fun key => ¬key.scope.expiresAt ≤ env.timestamp
  if removed > 0 then (removed, writeKeys env account newKeys) else (removed, env)

theorem loadAll_set_self (env : Env) (account : Address) (keys : List SessionKey) :
    loadAll (env.set (.sessKeys account) keys) account = keys := by
  unfold loadAll
  rw [Env.get_set_self]
  rfl

theorem loadAll_erase_self (env : Env) (account : Address) :
    loadAll (env.remove (.sessKeys account)) account = [] := by
  unfold loadAll
  rw [Env.get_remove_self]
  rfl

theorem loadAll_writeKeys_self (env : Env) (account : Address) (keys : List SessionKey) :
    loadAll (writeKeys env account keys) account = keys := by
  unfold writeKeys
  split_ifs with hempty
  · rw [loadAll_erase_self, List.isEmpty_iff.mp hempty]
  · exact loadAll_set_self env account keys

theorem loadAll_store_self (env : Env) (account : Address) (key : SessionKey) :
    loadAll (store env account key) account =
      KeyedList.removeKey SessionKey.keyId key.keyId (loadAll env account) ++ [key] :=
  loadAll_set_self ..

theorem loadAll_remove_self (env : Env) (account : Address) (keyId : BytesN 32) :
    loadAll (remove env account keyId).2 account =
      KeyedList.removeKey SessionKey.keyId keyId (loadAll env account) := by
  unfold remove
  dsimp only
  split_ifs with hfound
  · exact loadAll_writeKeys_self ..
  · simp only [List.any_eq_true, decide_eq_true_eq, not_exists, not_and] at hfound
    exact (List.filter_eq_self.mpr (by simpa using hfound)).symm

theorem loadAll_cleanupExpired_self (env : Env) (account : Address) :
    loadAll (cleanupExpired env account).2 account =
      (loadAll env account).filter fun key => ¬key.scope.expiresAt ≤ env.timestamp := by
  unfold cleanupExpired
  dsimp only
  split_ifs with hremoved
  · exact loadAll_writeKeys_self ..
  · have hnone := List.countP_eq_zero.mp (Nat.eq_zero_of_not_pos hremoved)
    exact (List.filter_eq_self.mpr (by simpa using hnone)).symm

def counted (keyId : BytesN 32) (key : SessionKey) : SessionKey :=
  if key.keyId = keyId then { key with operationsUsed := key.operationsUsed + 1 } else key

theorem counted_keyId (keyId : BytesN 32) (key : SessionKey) : (counted keyId key).keyId = key.keyId := by
  unfold counted
  split_ifs <;> rfl

theorem counted_scope (keyId : BytesN 32) (key : SessionKey) : (counted keyId key).scope = key.scope := by
  unfold counted
  split_ifs <;> rfl

def HasRoom (keyId : BytesN 32) (key : SessionKey) : Prop :=
  key.keyId = keyId → key.operationsUsed < u32Max

instance decidableHasRoom (keyId : BytesN 32) : DecidablePred (HasRoom keyId) := fun _ =>
  inferInstanceAs (Decidable (_ → _))

theorem bump_eq (keyId : BytesN 32) (key : SessionKey) :
    bump keyId key = if HasRoom keyId key then some (counted keyId key) else none := by
  unfold bump HasRoom counted checkedAdd
  by_cases hkey : key.keyId = keyId
  · by_cases hroom : key.operationsUsed < u32Max
    · simp [hkey, hroom]
    · simp [hkey, hroom]
  · simp [hkey]

-- The loop counts every key with the id, and traps if one of them is full.
theorem bumpAll_eq (keyId : BytesN 32) (keys : List SessionKey) :
    bumpAll keyId keys = if ∀ key ∈ keys, HasRoom keyId key then some (keys.map (counted keyId)) else none := by
  induction keys with
  | nil => rfl
  | cons first rest ih =>
      simp only [bumpAll, Option.bind_eq_bind, bump_eq, ih, List.forall_mem_cons]
      by_cases hfirst : HasRoom keyId first
      · by_cases hrest : ∀ key ∈ rest, HasRoom keyId key
        · rw [if_pos hfirst, if_pos hrest, if_pos ⟨hfirst, hrest⟩]
          rfl
        · rw [if_pos hfirst, if_neg hrest, if_neg fun h => hrest h.2]
          rfl
      · have hnone : ¬(HasRoom keyId first ∧ ∀ key ∈ rest, HasRoom keyId key) := fun h => hfirst h.1
        rw [if_neg hfirst, if_neg hnone]
        rfl

theorem mem_bumpAll {keyId : BytesN 32} {keys newKeys : List SessionKey}
    (h : bumpAll keyId keys = some newKeys) {next : SessionKey} (hnext : next ∈ newKeys) :
    ∃ key ∈ keys, next.keyId = key.keyId ∧ next.scope = key.scope := by
  rw [bumpAll_eq] at h
  split_ifs at h
  cases h
  obtain ⟨key, hkey, rfl⟩ := List.mem_map.mp hnext
  exact ⟨key, hkey, counted_keyId keyId key, counted_scope keyId key⟩

-- Counting usage renames no key and changes no scope.
theorem mem_loadAll_incrementUsage {env env' : Env} {account : Address} {keyId : BytesN 32}
    {result : Except AccountError Unit} (h : incrementUsage env account keyId = some (result, env'))
    {next : SessionKey} (hnext : next ∈ loadAll env' account) :
    ∃ key ∈ loadAll env account, next.keyId = key.keyId ∧ next.scope = key.scope := by
  unfold incrementUsage at h
  dsimp only at h
  split at h
  · cases h
  · rename_i newKeys hbump
    split_ifs at h
    · cases h
      rw [loadAll_set_self] at hnext
      exact mem_bumpAll hbump hnext
    · cases h
      exact ⟨next, hnext, rfl, rfl⟩

end Cougr.Accounts.SessionStorage
