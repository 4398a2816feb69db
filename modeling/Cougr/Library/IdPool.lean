import Mathlib.Data.List.Nodup

-- Numbers handed out by a counter and a list of the ones that were given back.
structure IdPool where
  next : Nat
  free : List Nat

namespace IdPool

-- The number given back last is handed out first.
def take (pool : IdPool) : Nat × IdPool :=
  match pool.free.getLast? with
  | some id => (id, { pool with free := pool.free.dropLast })
  | none => (pool.next, { pool with next := pool.next + 1 })

def give (pool : IdPool) (id : Nat) : IdPool := { pool with free := pool.free ++ [id] }

-- Every number handed out so far is held by someone or free, and by one of them only.
structure Accounts (pool : IdPool) (held : List Nat) : Prop where
  nodup : (held ++ pool.free).Nodup
  below : ∀ id ∈ held ++ pool.free, id < pool.next

variable {pool : IdPool} {held : List Nat}

theorem take_of_nil (hfree : pool.free = []) : pool.take = (pool.next, { pool with next := pool.next + 1 }) := by
  rw [take, hfree]
  rfl

theorem take_of_concat {rest : List Nat} {id : Nat} (hfree : pool.free = rest ++ [id]) :
    pool.take = (id, { pool with free := rest }) := by
  rw [take, hfree, List.getLast?_concat, List.dropLast_concat]

-- What `take` moves: a free number is held afterwards, or the counter has made a new one.
theorem take_cases (pool : IdPool) :
    (pool.free = [] ∧ pool.take = (pool.next, { pool with next := pool.next + 1 })) ∨
      ∃ rest id, pool.free = rest ++ [id] ∧ pool.take = (id, { pool with free := rest }) := by
  rcases List.eq_nil_or_concat pool.free with hnil | ⟨rest, id, hfree⟩
  · exact Or.inl ⟨hnil, take_of_nil hnil⟩
  · rw [List.concat_eq_append] at hfree
    exact Or.inr ⟨rest, id, hfree, take_of_concat hfree⟩

theorem Accounts.take (h : pool.Accounts held) : pool.take.2.Accounts (held ++ [pool.take.1]) := by
  rcases pool.take_cases with ⟨hfree, htake⟩ | ⟨rest, id, hfree, htake⟩
  · have hbelow : ∀ id ∈ held, id < pool.next := fun id hid => h.below id (List.mem_append_left _ hid)
    have hnodup := h.nodup
    rw [hfree, List.append_nil] at hnodup
    rw [htake]
    constructor
    · rw [hfree, List.append_nil, ← List.concat_eq_append]
      exact hnodup.concat fun hmem => Nat.lt_irrefl _ (hbelow _ hmem)
    · simp only [hfree, List.append_nil, List.mem_append, List.mem_singleton]
      rintro id (hid | rfl)
      · exact Nat.lt_succ_of_lt (hbelow id hid)
      · exact Nat.lt_succ_self _
  · have hperm : (held ++ [id] ++ rest).Perm (held ++ pool.free) := by
      rw [hfree, List.append_assoc]
      exact List.perm_append_comm.append_left held
    rw [htake]
    exact ⟨hperm.nodup_iff.mpr h.nodup, fun other hother => h.below other (hperm.mem_iff.mp hother)⟩

theorem Accounts.give {before after : List Nat} {id : Nat} (h : pool.Accounts (before ++ id :: after)) :
    (pool.give id).Accounts (before ++ after) := by
  have hperm : (before ++ after ++ (pool.free ++ [id])).Perm (before ++ id :: after ++ pool.free) := by
    have hlast : (before ++ after ++ (pool.free ++ [id])).Perm (id :: (before ++ after ++ pool.free)) := by
      rw [← List.append_assoc]
      exact List.perm_append_singleton _ _
    have hmiddle : (id :: (before ++ after ++ pool.free)).Perm (before ++ id :: after ++ pool.free) := by
      rw [← List.cons_append]
      exact List.perm_middle.symm.append_right _
    exact hlast.trans hmiddle
  exact ⟨hperm.nodup_iff.mpr h.nodup, fun other hother => h.below other (hperm.mem_iff.mp hother)⟩

-- The numbers that the counter has made since it stood at `first` are the held and the free ones.
structure Covers (pool : IdPool) (held : List Nat) (first : Nat) : Prop where
  start : first ≤ pool.next
  mem_iff : ∀ id, id ∈ held ++ pool.free ↔ first ≤ id ∧ id < pool.next

theorem Accounts.take_not_mem (h : pool.Accounts held) : pool.take.1 ∉ held := by
  have hnodup := h.take.nodup
  intro hmem
  rw [List.append_assoc, List.nodup_append] at hnodup
  exact hnodup.2.2 _ hmem _ (List.mem_append_left _ (List.mem_singleton_self _)) rfl

-- A number is handed out for the first time exactly when none is free.
theorem Accounts.take_new_iff (h : pool.Accounts held) : pool.take.1 ∉ held ++ pool.free ↔ pool.free = [] := by
  rcases pool.take_cases with ⟨hfree, htake⟩ | ⟨rest, id, hfree, htake⟩
  · rw [htake]
    exact iff_of_true (fun hmem => Nat.lt_irrefl _ (h.below _ hmem)) hfree
  · rw [htake, hfree]
    exact iff_of_false (fun hnew => hnew (by simp)) (by simp)

theorem mem_take_iff (pool : IdPool) (held : List Nat) (id : Nat) :
    id ∈ held ++ [pool.take.1] ++ pool.take.2.free ↔ id ∈ held ++ pool.free ∨ id = pool.take.1 := by
  rcases pool.take_cases with ⟨hfree, htake⟩ | ⟨rest, last, hfree, htake⟩
  · simp only [htake, hfree, List.append_nil, List.mem_append, List.mem_singleton]
  · simp only [htake, hfree, List.mem_append, List.mem_singleton]
    tauto

theorem mem_give_iff (pool : IdPool) (before after : List Nat) (id other : Nat) :
    other ∈ before ++ after ++ (pool.give id).free ↔ other ∈ before ++ id :: after ++ pool.free := by
  simp only [give, List.mem_append, List.mem_cons, List.not_mem_nil]
  tauto

section Covers

variable {first : Nat}

theorem covers_start (first : Nat) : Covers ⟨first, []⟩ [] first where
  start := Nat.le_refl first
  mem_iff _ := iff_of_false List.not_mem_nil fun h => Nat.not_lt.mpr h.1 h.2

theorem Covers.take (h : pool.Covers held first) : pool.take.2.Covers (held ++ [pool.take.1]) first := by
  rcases pool.take_cases with ⟨_, htake⟩ | ⟨rest, id, hfree, htake⟩
  · have hnew : pool.take.1 = pool.next := by rw [htake]
    have hnext : pool.take.2.next = pool.next + 1 := by rw [htake]
    have hstart := h.start
    refine ⟨by omega, fun other => ?_⟩
    rw [mem_take_iff, h.mem_iff]
    omega
  · have hnext : pool.take.2.next = pool.next := by rw [htake]
    have hold : id ∈ held ++ pool.free := by simp [hfree]
    refine ⟨hnext ▸ h.start, fun other => ?_⟩
    rw [mem_take_iff, hnext, ← h.mem_iff, htake]
    exact or_iff_left_of_imp fun hid => hid ▸ hold

theorem Covers.give {before after : List Nat} {id : Nat} (h : pool.Covers (before ++ id :: after) first) :
    (pool.give id).Covers (before ++ after) first where
  start := h.start
  mem_iff other := (pool.mem_give_iff before after id other).trans (h.mem_iff other)

end Covers

end IdPool
