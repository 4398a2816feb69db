import Mathlib.Data.List.Sublists
import Mathlib.Data.Nat.Choose.Basic

namespace Positions

variable {α σ : Type}

-- A loop over the positions of a list that looks each item up sees the items one after the other.
theorem foldlM_range' (visit : σ → α → σ) (before items : List α) (state : σ) :
    (List.range' before.length items.length).foldlM (fun state i => do
      let item ← (before ++ items)[i]?
      return visit state item) state = some (items.foldl visit state) := by
  induction items generalizing before state with
  | nil => rfl
  | cons item items ih =>
      have hnext := ih (before ++ [item]) (visit state item)
      have hbefore : (before ++ [item]).length = before.length + 1 := by
        rw [List.length_append, List.length_singleton]
      rw [← List.append_cons, hbefore] at hnext
      have hitem : (before ++ item :: items)[before.length]? = some item := by
        rw [List.getElem?_append_right (Nat.le_refl _), Nat.sub_self, List.getElem?_cons_zero]
      rw [List.length_cons, List.range'_succ, List.foldlM_cons, hitem]
      exact hnext

theorem foldlM_range (visit : σ → α → σ) (items : List α) (state : σ) :
    (List.range items.length).foldlM (fun state i => do
      let item ← items[i]?
      return visit state item) state = some (items.foldl visit state) := by
  rw [List.range_eq_range']
  exact foldlM_range' visit [] items state

-- Every item with each of those after it.
def pairs : List α → List (α × α)
  | [] => []
  | first :: rest => rest.map (Prod.mk first) ++ pairs rest

theorem mem_pairs_iff (first second : α) (items : List α) :
    (first, second) ∈ pairs items ↔ List.Sublist [first, second] items := by
  induction items with
  | nil => simp [pairs]
  | cons item items ih =>
      rw [pairs, List.mem_append, ih, List.mem_map, List.cons_sublist_cons']
      simp only [Prod.mk.injEq, List.singleton_sublist]
      constructor
      · rintro (⟨_, hmem, rfl, rfl⟩ | hsub)
        · exact Or.inr ⟨rfl, hmem⟩
        · exact Or.inl hsub
      · rintro (hsub | ⟨rfl, hmem⟩)
        · exact Or.inr hsub
        · exact Or.inl ⟨second, hmem, rfl, rfl⟩

theorem length_pairs (items : List α) : (pairs items).length = items.length.choose 2 := by
  induction items with
  | nil => rfl
  | cons item items ih =>
      rw [pairs, List.length_append, List.length_map, ih, List.length_cons, Nat.choose_succ_succ',
        Nat.choose_one_right]

theorem nodup_pairs {items : List α} (hitems : items.Nodup) : (pairs items).Nodup := by
  induction items with
  | nil => exact List.nodup_nil
  | cons item items ih =>
      obtain ⟨hnew, hrest⟩ := List.nodup_cons.mp hitems
      refine List.Nodup.append (hrest.map fun _ _ h => (Prod.mk.inj h).2) (ih hrest) ?_
      rintro ⟨first, second⟩ hhead htail
      obtain ⟨_, _, heq⟩ := List.mem_map.mp hhead
      obtain ⟨rfl, rfl⟩ := Prod.mk.inj heq
      exact hnew (((mem_pairs_iff _ _ _).mp htail).subset List.mem_cons_self)

-- Two nested loops over positions, the inner one past the outer one, see the pairs.
theorem foldlM_pairs_range' (visit : σ → α → α → σ) (before items : List α) (state : σ) :
    (List.range' before.length items.length).foldlM (fun state i =>
      (List.range' (i + 1) ((before ++ items).length - (i + 1))).foldlM (fun state j => do
        let first ← (before ++ items)[i]?
        let second ← (before ++ items)[j]?
        return visit state first second) state) state =
      some ((pairs items).foldl (fun state pair => visit state pair.1 pair.2) state) := by
  induction items generalizing before state with
  | nil => rfl
  | cons item items ih =>
      have hnext := ih (before ++ [item]) (items.foldl (fun state second => visit state item second) state)
      have hinner := foldlM_range' (fun state second => visit state item second) (before ++ [item]) items state
      have hbefore : (before ++ [item]).length = before.length + 1 := by
        rw [List.length_append, List.length_singleton]
      rw [← List.append_cons, hbefore] at hnext hinner
      have hitem : (before ++ item :: items)[before.length]? = some item := by
        rw [List.getElem?_append_right (Nat.le_refl _), Nat.sub_self, List.getElem?_cons_zero]
      have hlength : (before ++ item :: items).length - (before.length + 1) = items.length := by
        rw [List.length_append, List.length_cons]
        omega
      rw [List.length_cons, List.range'_succ, List.foldlM_cons, hlength, hitem]
      simp only [Option.bind_eq_bind, Option.bind_some] at hinner ⊢
      rw [hinner, Option.bind_some, pairs, List.foldl_append, List.foldl_map]
      exact hnext

theorem foldlM_pairs_range (visit : σ → α → α → σ) (items : List α) (state : σ) :
    (List.range items.length).foldlM (fun state i =>
      (List.range' (i + 1) (items.length - (i + 1))).foldlM (fun state j => do
        let first ← items[i]?
        let second ← items[j]?
        return visit state first second) state) state =
      some ((pairs items).foldl (fun state pair => visit state pair.1 pair.2) state) := by
  rw [List.range_eq_range']
  exact foldlM_pairs_range' visit [] items state

end Positions
