import Cougr.Accounts.Env
import Cougr.Library.KeyedList
import Cougr.Library.Transition

namespace Cougr.Accounts.Secp256r1Storage

open KeyedList Transition

def loadAll (env : Env) (account : Address) : List Secp256r1Key :=
  (env.get (.p256Keys account) : Option (List Secp256r1Key)).getD []

def store (env : Env) (account : Address) (key : Secp256r1Key) : Env :=
  let newKeys := removeKey Secp256r1Key.label key.label (loadAll env account) ++ [key]
  env.set (.p256Keys account) newKeys

def remove (env : Env) (account : Address) (label : Symbol) : Bool × Env :=
  let keys := loadAll env account
  let newKeys := removeKey Secp256r1Key.label label keys
  let found := keys.any fun k => k.label = label
  if found then
    (true, if newKeys.isEmpty then env.remove (.p256Keys account) else env.set (.p256Keys account) newKeys)
  else (false, env)

def findByLabel (env : Env) (account : Address) (label : Symbol) : Option Secp256r1Key :=
  lookup Secp256r1Key.label label (loadAll env account)

section Operations

variable (env : Env) (account other : Address)

theorem loadAll_set (keys : List Secp256r1Key) :
    loadAll (env.set (.p256Keys account) keys) other = if other = account then keys else loadAll env other := by
  unfold loadAll
  split_ifs with h
  · rw [h, Env.get_set_self]
    rfl
  · rw [Env.get_set_of_ne _ _ (by simpa using h)]

theorem loadAll_erase :
    loadAll (env.remove (.p256Keys account)) other = if other = account then [] else loadAll env other := by
  unfold loadAll
  split_ifs with h
  · rw [h, Env.get_remove_self]
    rfl
  · rw [Env.get_remove_of_ne _ (by simpa using h)]

theorem loadAll_store (key : Secp256r1Key) :
    loadAll (store env account key) other =
      if other = account then removeKey Secp256r1Key.label key.label (loadAll env account) ++ [key]
      else loadAll env other := loadAll_set ..

theorem loadAll_remove (label : Symbol) :
    loadAll (remove env account label).2 other =
      if other = account then removeKey Secp256r1Key.label label (loadAll env account)
      else loadAll env other := by
  have hstored : ∀ keys, loadAll (if keys.isEmpty then env.remove (.p256Keys account)
      else env.set (.p256Keys account) keys) other = if other = account then keys else loadAll env other := by
    intro keys
    by_cases hempty : keys.isEmpty
    · rw [if_pos hempty, loadAll_erase, List.isEmpty_iff.mp hempty]
    · rw [if_neg hempty, loadAll_set]
  unfold remove
  dsimp only
  by_cases hfound : (loadAll env account).any fun k => k.label = label
  · rw [if_pos hfound]
    exact hstored _
  · rw [if_neg hfound]
    have habsent : ∀ k ∈ loadAll env account, k.label ≠ label := by simpa using hfound
    split_ifs with h
    · rw [h]
      exact (List.filter_eq_self.mpr (by simpa using habsent)).symm
    · rfl

theorem remove_fst (label : Symbol) :
    (remove env account label).1 = (findByLabel env account label).isSome := by
  rw [findByLabel, ← any_eq_isSome_lookup]
  unfold remove
  dsimp only
  cases (loadAll env account).any fun k => k.label = label <;> rfl

end Operations

inductive Op where
  | store (account : Address) (key : Secp256r1Key)
  | remove (account : Address) (label : Symbol)

def step (env : Env) : Op → Env
  | .store account key => store env account key
  | .remove account label => (remove env account label).2

def Op.account : Op → Address
  | .store account _ => account
  | .remove account _ => account

section Map

variable (account : Address) (label : Symbol)

def stored : Op → Option Secp256r1Key
  | .store account' key => if account' = account ∧ key.label = label then some key else none
  | .remove _ _ => none

def Lost : Op → Prop
  | .store _ _ => False
  | .remove account' label' => account' = account ∧ label' = label

instance decidableLost : DecidablePred (Lost account label)
  | .store _ _ => isFalse id
  | .remove _ _ => inferInstanceAs (Decidable (_ ∧ _))

def handOn (_ : Env) (op : Op) (key : Secp256r1Key) : Option Secp256r1Key :=
  if Lost account label op then none else some key

theorem findByLabel_store (env : Env) (account' : Address) (key : Secp256r1Key) :
    findByLabel (store env account' key) account label =
      if account' = account ∧ key.label = label then some key else findByLabel env account label := by
  rw [findByLabel, loadAll_store]
  by_cases haccount : account = account'
  · subst haccount
    rw [if_pos rfl, lookup_removeKey_concat]
    simp only [true_and, eq_comm (a := label)]
    rfl
  · rw [if_neg haccount, if_neg fun h => haccount h.1.symm]
    rfl

theorem findByLabel_remove (env : Env) (account' : Address) (label' : Symbol) :
    findByLabel (remove env account' label').2 account label =
      if account' = account ∧ label' = label then none else findByLabel env account label := by
  rw [findByLabel, loadAll_remove]
  by_cases haccount : account = account'
  · subst haccount
    rw [if_pos rfl, lookup_removeKey]
    simp only [true_and, eq_comm (a := label)]
    rfl
  · rw [if_neg haccount, if_neg fun h => haccount h.1.symm]
    rfl

theorem findByLabel_step (env : Env) (op : Op) :
    findByLabel (step env op) account label =
      (stored account label op).or ((findByLabel env account label).bind (handOn account label env op)) := by
  cases op with
  | store account' key =>
      rw [step, findByLabel_store, stored]
      split_ifs
      · rfl
      · cases findByLabel env account label <;> simp [handOn, Lost]
  | remove account' label' =>
      rw [step, findByLabel_remove, stored, Option.none_or]
      cases findByLabel env account label with
      | none => exact ite_self none
      | some key =>
          by_cases hlost : account' = account ∧ label' = label
          · exact (if_pos hlost).trans (if_pos hlost).symm
          · exact (if_neg hlost).trans (if_neg hlost).symm

theorem findByLabel_step_of_ne (env : Env) {op : Op} (h : account ≠ op.account) :
    findByLabel (step env op) account label = findByLabel env account label := by
  cases op with
  | store account' key => rw [step, findByLabel_store, if_neg fun heq => h heq.1.symm]
  | remove account' label' => rw [step, findByLabel_remove, if_neg fun heq => h heq.1.symm]

-- What is handed on is the key itself, for as long as no operation removes it.
theorem carry_handOn (env : Env) (ops : List Op) (key final : Secp256r1Key) :
    carry step (handOn account label) env ops key = some final ↔
      (∀ op ∈ ops, ¬Lost account label op) ∧ final = key := by
  induction ops generalizing env with
  | nil => simp [carry, eq_comm]
  | cons op ops ih =>
      rw [carry, List.forall_mem_cons, handOn]
      split_ifs with hlost
      · simp [hlost]
      · simp [hlost, ih]

end Map

def envAfter (timestamp : Nat) (ops : List Op) : Env := run step (Env.fresh timestamp) ops

def Distinct (env : Env) : Prop := ∀ account, ((loadAll env account).map Secp256r1Key.label).Nodup

theorem distinct_step {env : Env} (h : Distinct env) (op : Op) : Distinct (step env op) := by
  intro account
  cases op with
  | store account' key =>
      rw [step, loadAll_store]
      split_ifs
      · exact nodup_removeKey_concat (h account') key
      · exact h account
  | remove account' label =>
      rw [step, loadAll_remove]
      split_ifs
      · exact nodup_filter (h account') _
      · exact h account

theorem distinct_envAfter (timestamp : Nat) (ops : List Op) : Distinct (envAfter timestamp ops) := by
  have hempty : Distinct (Env.fresh timestamp) := fun account => List.nodup_nil
  exact run_invariant_of_step Distinct (fun _ op h => distinct_step h op) hempty ops

theorem findByLabel_envAfter (timestamp : Nat) (ops : List Op) (account : Address) (label : Symbol)
    (key : Secp256r1Key) : findByLabel (envAfter timestamp ops) account label = some key ↔
      ∃ past rest, ops = past ++ .store account key :: rest ∧ key.label = label ∧
        (∀ other ∈ rest, stored account label other = none) ∧ ∀ other ∈ rest, ¬Lost account label other := by
  have hrun := @run_value_iff _ _ step _ (fun env => findByLabel env account label) (stored account label)
    (handOn account label) (Env.fresh timestamp) rfl (fun _ op => findByLabel_step account label _ op) ops key
  refine hrun.trans ?_
  simp only [carry_handOn]
  constructor
  · rintro ⟨past, input, rest, first, hsplit, hstored, hrest, hkept, rfl⟩
    cases input with
    | store account' key' =>
        simp only [stored] at hstored
        split_ifs at hstored with hhere
        obtain ⟨rfl, hlabel⟩ := hhere
        cases hstored
        exact ⟨past, rest, hsplit, hlabel, hrest, hkept⟩
    | remove account' label' => exact absurd hstored (Option.some_ne_none _).symm
  · intro hsource
    obtain ⟨past, rest, hsplit, hlabel, hrest, hkept⟩ := hsource
    exact ⟨past, .store account key, rest, key, hsplit, if_pos ⟨rfl, hlabel⟩, hrest, hkept, rfl⟩

-- From empty storage on, each account keeps a map from labels to keys.
structure KeepsMap (timestamp : Nat) (ops : List Op) : Prop where
  distinct : ∀ account, ((loadAll (envAfter timestamp ops) account).map Secp256r1Key.label).Nodup
  find : ∀ account label key, findByLabel (envAfter timestamp ops) account label = some key ↔
    ∃ past rest, ops = past ++ .store account key :: rest ∧ key.label = label ∧
      (∀ other ∈ rest, stored account label other = none) ∧ ∀ other ∈ rest, ¬Lost account label other
  remove : ∀ account label, (remove (envAfter timestamp ops) account label).1 = true ↔
    (findByLabel (envAfter timestamp ops) account label).isSome
  frame : ∀ op account label, account ≠ op.account →
    findByLabel (step (envAfter timestamp ops) op) account label =
      findByLabel (envAfter timestamp ops) account label

theorem keepsMap (timestamp : Nat) (ops : List Op) : KeepsMap timestamp ops where
  distinct := distinct_envAfter timestamp ops
  find := findByLabel_envAfter timestamp ops
  remove account label := by rw [remove_fst]
  frame op account label h := findByLabel_step_of_ne account label _ h

end Cougr.Accounts.Secp256r1Storage
