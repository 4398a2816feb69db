import Mathlib.GroupTheory.OrderOfElement

-- A bilinear, non-degenerate pairing into a group of odd prime order.
structure Pairing (G₁ G₂ G : Type*) [AddCommGroup G₁] [AddCommGroup G₂] [CommGroup G] where
  e : G₁ → G₂ → G
  add_left : ∀ P P' Q, e (P + P') Q = e P Q * e P' Q
  add_right : ∀ P Q Q', e P (Q + Q') = e P Q * e P Q'
  eq_zero_left : ∀ P, (∀ Q, e P Q = 1) → P = 0
  eq_zero_right : ∀ Q, (∀ P, e P Q = 1) → Q = 0
  prime : (Nat.card G).Prime
  two_lt : 2 < Nat.card G

namespace Pairing

variable {G₁ G₂ G : Type*} [AddCommGroup G₁] [AddCommGroup G₂] [CommGroup G] (pairing : Pairing G₁ G₂ G)

theorem zero_left (Q : G₂) : pairing.e 0 Q = 1 := by
  have hdouble := pairing.add_left 0 0 Q
  rw [add_zero] at hdouble
  exact left_eq_mul.mp hdouble

theorem neg_left (P : G₁) (Q : G₂) : pairing.e (-P) Q = (pairing.e P Q)⁻¹ := by
  have hsum := pairing.add_left (-P) P Q
  rw [neg_add_cancel, pairing.zero_left] at hsum
  exact eq_inv_of_mul_eq_one_left hsum.symm

theorem nsmul_left (n : Nat) (P : G₁) (Q : G₂) : pairing.e (n • P) Q = pairing.e P Q ^ n := by
  induction n with
  | zero => rw [zero_smul, pairing.zero_left, pow_zero]
  | succ n ih => rw [succ_nsmul, pairing.add_left, ih, pow_succ]

include pairing in
-- The order of the target group annihilates every point.
theorem order_nsmul (P : G₁) : Nat.card G • P = 0 := by
  apply pairing.eq_zero_left
  intro Q
  rw [pairing.nsmul_left]
  exact pow_card_eq_one'

include pairing in
theorem nsmul_congr (P : G₁) {n m : Nat} (h : n ≡ m [MOD Nat.card G]) : n • P = m • P :=
  nsmul_eq_nsmul_iff_modEq.mpr (h.of_dvd (addOrderOf_dvd_of_nsmul_eq_zero (pairing.order_nsmul P)))

include pairing in
-- The order is odd: only the unit is its own inverse.
theorem eq_inv_iff (x : G) : x = x⁻¹ ↔ x = 1 := by
  constructor
  · intro h
    have hsquare : x ^ 2 = 1 := by
      rw [pow_two]
      nth_rewrite 2 [h]
      exact mul_inv_cancel x
    have hcoprime : Nat.Coprime 2 (Nat.card G) :=
      (Nat.coprime_primes Nat.prime_two pairing.prime).mpr (Nat.ne_of_lt pairing.two_lt)
    have hone : orderOf x ∣ 1 := by
      rw [← hcoprime.gcd_eq_one]
      exact Nat.dvd_gcd (orderOf_dvd_of_pow_eq_one hsquare) (orderOf_dvd_natCard x)
    exact orderOf_eq_one_iff.mp (Nat.dvd_one.mp hone)
  · rintro rfl
    exact inv_one.symm

include pairing in
-- Testing a product against the unit in place of an equation is right exactly when neither holds,
-- or both do because the right-hand side is the unit.
theorem mul_eq_one_iff_eq_iff (x r : G) : (x * r = 1 ↔ x = r) ↔ r = 1 ∨ x ≠ r ∧ x ≠ r⁻¹ := by
  rw [mul_eq_one_iff_eq_inv, ← pairing.eq_inv_iff r]
  constructor
  · intro hsame
    by_cases hx : x = r
    · exact Or.inl (hx ▸ hsame.mpr hx)
    · exact Or.inr ⟨hx, fun hinv => hx (hsame.mp hinv)⟩
  · rintro (hself | ⟨hne, hne'⟩)
    · rw [← hself]
    · exact iff_of_false hne' hne

end Pairing
