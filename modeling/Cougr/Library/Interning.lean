import Mathlib.Data.Finset.Card
import Mathlib.Data.List.Dedup
import Mathlib.Data.List.TakeWhile

namespace Interning

variable {α : Type} [DecidableEq α]

def learn (known : List α) (name : α) : List α := if name ∈ known then known else known ++ [name]

-- Names in the order of their first use.
def known (used : List α) : List α := used.foldl learn []

theorem known_concat (used : List α) (name : α) : known (used ++ [name]) = learn (known used) name :=
  List.foldl_concat ..

@[simp] theorem mem_known (used : List α) (name : α) : name ∈ known used ↔ name ∈ used := by
  induction used using List.reverseRecOn with
  | nil => rfl
  | append_singleton used latest ih =>
      rw [known_concat, learn]
      split_ifs with hold
      · rw [ih, List.mem_append, List.mem_singleton, or_iff_left_of_imp]
        rintro rfl
        exact ih.mp hold
      · rw [List.mem_append, List.mem_append, ih]

theorem nodup_known (used : List α) : (known used).Nodup := by
  induction used using List.reverseRecOn with
  | nil => exact List.nodup_nil
  | append_singleton used latest ih =>
      rw [known_concat, learn]
      split_ifs with hold
      · exact ih
      · exact ih.append (List.nodup_singleton _) (List.disjoint_singleton.mpr hold)

theorem length_known (used : List α) : (known used).length = used.toFinset.card := by
  rw [← List.toFinset_card_of_nodup (nodup_known used)]
  congr 1
  ext name
  rw [List.mem_toFinset, List.mem_toFinset, mem_known]

-- A name stands behind the names that were used before its first use.
theorem idxOf_known {used : List α} {name : α} (hname : name ∈ used) :
    (known used).idxOf name = (used.takeWhile (· ≠ name)).toFinset.card := by
  induction used using List.reverseRecOn with
  | nil => cases hname
  | append_singleton used latest ih =>
      rw [known_concat, learn]
      by_cases hused : name ∈ used
      · have hstop : (used ++ [latest]).takeWhile (· ≠ name) = used.takeWhile (· ≠ name) := by
          rw [List.takeWhile_append, if_neg]
          intro hall
          have hinitial := List.takeWhile_prefix (l := used) fun other => decide (other ≠ name)
          have hself := List.mem_takeWhile_imp (hinitial.eq_of_length hall ▸ hused)
          exact of_decide_eq_true hself rfl
        rw [hstop, ← ih hused]
        split_ifs
        · rfl
        · exact List.idxOf_append_of_mem ((mem_known used name).mpr hused)
      · obtain rfl : name = latest := by simpa [hused] using hname
        have hfresh : name ∉ known used := fun hmem => hused ((mem_known used name).mp hmem)
        have hall : (used ++ [name]).takeWhile (· ≠ name) = used := by
          rw [List.takeWhile_append_of_pos
            (fun other hother => decide_eq_true (ne_of_mem_of_not_mem hother hused))]
          simp
        rw [if_neg hfresh, List.idxOf_append_of_notMem hfresh, hall, ← length_known]
        simp

section Table

-- Names numbered one after the other.
variable (names : List α) (start : Nat)

theorem find?_name (name : α) : ((names.zipIdx start).find? fun entry => entry.1 = name) =
    if name ∈ names then some (name, start + names.idxOf name) else none := by
  induction names generalizing start with
  | nil => rfl
  | cons first rest ih =>
      rw [List.zipIdx_cons, List.find?_cons]
      by_cases hfirst : first = name
      · subst hfirst
        simp
      · simp only [hfirst, decide_false, ih, List.mem_cons, Ne.symm hfirst, false_or, List.idxOf_cons_ne _ hfirst]
        split_ifs
        · rw [Nat.succ_eq_add_one, Nat.add_right_comm, Nat.add_assoc]
        · rfl

omit [DecidableEq α] in
theorem find?_number (number : Nat) : ((names.zipIdx start).find? fun entry => entry.2 = number) =
    if start ≤ number then names[number - start]?.map fun name => (name, number) else none := by
  induction names generalizing start with
  | nil => simp
  | cons first rest ih =>
      rw [List.zipIdx_cons, List.find?_cons]
      by_cases hfirst : start = number
      · subst hfirst
        simp
      · simp only [hfirst, decide_false, ih]
        by_cases hle : start ≤ number
        · have hsub : number - start = number - (start + 1) + 1 := by omega
          rw [if_pos (by omega), if_pos hle, hsub, List.getElem?_cons_succ]
        · rw [if_neg (by omega), if_neg hle]

end Table

end Interning
