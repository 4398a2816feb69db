import Mathlib.Data.List.Nodup

-- Records in a list, found by the first one that carries a given key.
namespace KeyedList

variable {α κ : Type*} [DecidableEq κ] (key : α → κ)

def lookup (k : κ) (records : List α) : Option α :=
  records.find? fun record => key record = k

-- Change the first record with the key and leave the rest of the list alone.
def modifyFirst (k : κ) (f : α → α) : List α → List α
  | [] => []
  | record :: records =>
      if key record = k then f record :: records else record :: modifyFirst k f records

def removeKey (k : κ) (records : List α) : List α :=
  records.filter fun record => key record ≠ k

variable {key}

@[simp] theorem lookup_nil (k : κ) : lookup key k [] = none := rfl

theorem lookup_cons (k : κ) (record : α) (records : List α) :
    lookup key k (record :: records) = if key record = k then some record else lookup key k records := by
  by_cases h : key record = k <;> simp [lookup, h]

theorem lookup_append (k : κ) (first second : List α) :
    lookup key k (first ++ second) = (lookup key k first).or (lookup key k second) :=
  List.find?_append

theorem lookup_eq_none_iff {k : κ} {records : List α} :
    lookup key k records = none ↔ ∀ record ∈ records, key record ≠ k := by
  simp [lookup]

theorem lookup_isSome_iff {k : κ} {records : List α} :
    (lookup key k records).isSome ↔ ∃ record ∈ records, key record = k := by
  simp [lookup]

theorem any_eq_isSome_lookup (k : κ) (records : List α) :
    (records.any fun record => key record = k) = (lookup key k records).isSome := by
  rw [Bool.eq_iff_iff, lookup_isSome_iff]
  simp

theorem lookup_modifyFirst {k : κ} {f : α → α} (hf : ∀ record, key (f record) = key record) (other : κ)
    (records : List α) :
    lookup key other (modifyFirst key k f records) =
      if other = k then (lookup key k records).map f else lookup key other records := by
  induction records with
  | nil => simp [modifyFirst]
  | cons record records ih =>
      by_cases h : key record = k
      · by_cases hother : other = k
        · simp [modifyFirst, lookup_cons, h, hf, hother]
        · simp [modifyFirst, lookup_cons, h, hf, hother, Ne.symm hother]
      · by_cases hother : other = k
        · subst hother
          simp [modifyFirst, lookup_cons, h, ih]
        · simp [modifyFirst, lookup_cons, h, ih, hother]

-- A filter on keys alone hides the records of the keys it rejects and no others.
theorem lookup_filter (k : κ) (keep : κ → Bool) (records : List α) :
    lookup key k (records.filter fun record => keep (key record)) =
      if keep k then lookup key k records else none := by
  induction records with
  | nil => simp
  | cons record records ih =>
      by_cases h : key record = k
      · by_cases hkeep : keep k <;> simp_all [lookup_cons]
      · by_cases hkept : keep (key record) <;> simp [lookup_cons, h, hkept, ih]

theorem lookup_removeKey (k other : κ) (records : List α) :
    lookup key other (removeKey key k records) = if other = k then none else lookup key other records := by
  have h : lookup key other (removeKey key k records) =
      if decide (other ≠ k) then lookup key other records else none :=
    lookup_filter other (fun k' => decide (k' ≠ k)) records
  rw [h]
  by_cases hother : other = k <;> simp [hother]

-- To store a record is to drop the ones with its key and to append it.
theorem lookup_removeKey_concat (record : α) (k : κ) (records : List α) :
    lookup key k (removeKey key (key record) records ++ [record]) =
      if k = key record then some record else lookup key k records := by
  rw [lookup_append, lookup_removeKey, lookup_cons, lookup_nil]
  by_cases hk : k = key record
  · simp [hk]
  · simp [hk, Ne.symm hk]

theorem lookup_map {f : α → α} (hf : ∀ record, key (f record) = key record) (k : κ) (records : List α) :
    lookup key k (records.map f) = (lookup key k records).map f := by
  rw [lookup, List.find?_map]
  simp only [Function.comp_def, hf]
  rfl

section Nodup

variable {records : List α}

omit [DecidableEq κ] in
theorem nodup_filter (h : (records.map key).Nodup) (p : α → Bool) : ((records.filter p).map key).Nodup :=
  h.sublist (List.filter_sublist.map key)

theorem nodup_removeKey_concat (h : (records.map key).Nodup) (record : α) :
    ((removeKey key (key record) records ++ [record]).map key).Nodup := by
  rw [List.map_append, List.map_singleton]
  refine List.nodup_append.mpr ⟨nodup_filter h _, List.nodup_singleton _, ?_⟩
  intro k hk other hother
  rw [List.mem_singleton.mp hother]
  obtain ⟨kept, hkept, rfl⟩ := List.mem_map.mp hk
  simpa using (List.mem_filter.mp hkept).2

-- With one record per key to find a record is to be one.
theorem lookup_eq_some_iff (h : (records.map key).Nodup) {k : κ} {record : α} :
    lookup key k records = some record ↔ record ∈ records ∧ key record = k := by
  constructor
  · intro hlookup
    exact ⟨List.mem_of_find?_eq_some hlookup, by simpa using List.find?_some hlookup⟩
  · intro hrecord
    induction records with
    | nil => cases hrecord.1
    | cons first rest ih =>
        obtain ⟨hfirst, hrest⟩ := List.nodup_cons.mp h
        rw [lookup_cons]
        rcases List.mem_cons.mp hrecord.1 with hhere | hthere
        · rw [← hhere, if_pos hrecord.2]
        · have hne : key first ≠ k := by
            intro heq
            rw [heq, ← hrecord.2] at hfirst
            exact hfirst (List.mem_map_of_mem hthere)
          rw [if_neg hne]
          exact ih hrest ⟨hthere, hrecord.2⟩

theorem lookup_filter_of_nodup (h : (records.map key).Nodup) (p : α → Bool) (k : κ) :
    lookup key k (records.filter p) = (lookup key k records).filter p := by
  ext record
  rw [lookup_eq_some_iff (nodup_filter h p), List.mem_filter, Option.filter_eq_some_iff, lookup_eq_some_iff h]
  exact and_right_comm

end Nodup

-- Of the records with the key the first is changed; the others are passed over.
theorem filter_modifyFirst {k : κ} {f : α → α} (hf : ∀ record, key (f record) = key record)
    (records : List α) :
    (modifyFirst key k f records).filter (fun record => key record = k) =
      (records.filter fun record => key record = k).modifyHead f := by
  induction records with
  | nil => rfl
  | cons record records ih =>
      by_cases h : key record = k
      · simp [modifyFirst, h, hf]
      · simpa [modifyFirst, h] using ih

theorem filter_modifyFirst_of_ne {k : κ} {f : α → α} (hf : ∀ record, key (f record) = key record)
    (records : List α) :
    (modifyFirst key k f records).filter (fun record => key record ≠ k) =
      records.filter fun record => key record ≠ k := by
  induction records with
  | nil => rfl
  | cons record records ih =>
      by_cases h : key record = k
      · simp [modifyFirst, h, hf]
      · simpa [modifyFirst, h] using ih

theorem modifyFirst_eq_self {k : κ} {f : α → α} {records : List α}
    (habsent : ∀ record ∈ records, key record ≠ k) : modifyFirst key k f records = records := by
  induction records with
  | nil => rfl
  | cons record records ih =>
      obtain ⟨hfirst, hrest⟩ := List.forall_mem_cons.mp habsent
      rw [modifyFirst, if_neg hfirst, ih hrest]

theorem mem_modifyFirst {k : κ} {f : α → α} {records : List α} {record : α}
    (h : record ∈ modifyFirst key k f records) : record ∈ records ∨ ∃ old ∈ records, record = f old := by
  induction records with
  | nil => cases h
  | cons first rest ih =>
      unfold modifyFirst at h
      split_ifs at h
      · rcases List.mem_cons.mp h with hhere | hthere
        · exact Or.inr ⟨first, List.mem_cons_self, hhere⟩
        · exact Or.inl (List.mem_cons_of_mem _ hthere)
      · rcases List.mem_cons.mp h with hhere | hthere
        · exact Or.inl (hhere ▸ List.mem_cons_self)
        · rcases ih hthere with hold | ⟨old, hold, hrecord⟩
          · exact Or.inl (List.mem_cons_of_mem _ hold)
          · exact Or.inr ⟨old, List.mem_cons_of_mem _ hold, hrecord⟩

-- Position by position a record is the old one or the old one changed.
theorem forall₂_modifyFirst (k : κ) (f : α → α) (records : List α) :
    List.Forall₂ (fun old new => new = old ∨ new = f old) records (modifyFirst key k f records) := by
  induction records with
  | nil => exact .nil
  | cons record records ih =>
      unfold modifyFirst
      split_ifs
      · exact .cons (Or.inr rfl) (List.forall₂_same.mpr fun _ _ => Or.inl rfl)
      · exact .cons (Or.inl rfl) ih

end KeyedList
