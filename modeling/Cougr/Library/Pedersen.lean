import Mathlib.Algebra.BigOperators.Group.List.Basic
import Mathlib.Algebra.Field.Basic
import Mathlib.Algebra.GroupWithZero.Action.Units
import Mathlib.Algebra.Module.Basic
import Mathlib.Tactic.Abel

namespace Pedersen

section Sums

variable {R M : Type*} [Semiring R] [AddCommMonoid M] [Module R M]

-- A value under a blinding factor.
def commit (g h : M) (value blinding : R) : M := value • g + blinding • h

theorem commit_zero (g h : M) : commit g h (0 : R) 0 = 0 := by
  rw [commit, zero_smul, zero_smul, add_zero]

theorem commit_add (g h : M) (v v' r r' : R) :
    commit g h (v + v') (r + r') = commit g h v r + commit g h v' r' := by
  simp only [commit, add_smul]
  abel

theorem commit_sum {α : Type*} (g h : M) (v r : α → R) (items : List α) :
    commit g h (items.map v).sum (items.map r).sum =
    (items.map fun item => commit g h (v item) (r item)).sum := by
  induction items with
  | nil => exact commit_zero g h
  | cons item items ih =>
      simp only [List.map_cons, List.sum_cons]
      rw [commit_add, ih]

end Sums

section Binding

variable {F M : Type*} [Field F] [AddCommGroup M] [Module F M] {g h : M} {v v' r r' : F}

theorem commit_eq_iff : commit g h v r = commit g h v' r' ↔ (v - v') • g = (r' - r) • h := by
  simp only [commit, sub_smul]
  rw [sub_eq_sub_iff_add_eq_add, add_comm (r' • h)]

-- Openings to different values exist exactly if the second generator is the multiple of the first one that the
-- two of them give away.
theorem commit_eq_iff_log (hg : g ≠ 0) (hvalue : v ≠ v') :
    commit g h v r = commit g h v' r' ↔ r ≠ r' ∧ h = ((v - v') / (r' - r)) • g := by
  have hdiff : v - v' ≠ 0 := sub_ne_zero.mpr hvalue
  rw [commit_eq_iff]
  constructor
  · intro hsame
    have hblinding : r' - r ≠ 0 := by
      intro hzero
      rw [hzero, zero_smul] at hsame
      exact hg ((IsUnit.mk0 _ hdiff).smul_eq_zero.mp hsame)
    refine ⟨fun heq => hblinding (by rw [heq, sub_self]), ?_⟩
    rw [div_eq_inv_mul, mul_smul, hsame, smul_smul, inv_mul_cancel₀ hblinding, one_smul]
  · rintro ⟨hblinding, hlog⟩
    have hnonzero : r' - r ≠ 0 := sub_ne_zero.mpr (Ne.symm hblinding)
    rw [hlog, smul_smul, mul_div_cancel₀ _ hnonzero]

end Binding

end Pedersen
