import Mathlib.Algebra.Module.ZMod
import Mathlib.Algebra.Field.ZMod
import Cougr.Library.Pedersen
import Cougr.Zk.Groth16.Theorems

namespace Cougr.Zk

structure PedersenParams where
  g : G1Point
  h : G1Point

structure PedersenCommitment where
  point : G1Point

def pedersenCommit (host : Bn254) (params : PedersenParams)
    (value blinding : Scalar) : Outcome PedersenCommitment := do
  let vg ← bn254G1Mul host params.g value
  let rh ← bn254G1Mul host params.h blinding
  let point ← bn254G1Add host vg rh
  return { point }

-- The points are compared as they are serialized.
def pedersenVerify (host : Bn254) (params : PedersenParams) (commitment : PedersenCommitment)
    (value blinding : Scalar) : Outcome Bool := do
  let expected ← pedersenCommit host params value blinding
  return commitment.point.bytes == expected.point.bytes

variable {G₁ G₂ G : Type} [AddCommGroup G₁] [AddCommGroup G₂] [CommGroup G] [DecidableEq G]
  {host : Bn254} {pairing : Pairing G₁ G₂ G} {g1 : BytesN 64 → Option G₁} {g2 : BytesN 128 → Option G₂}
  {params : PedersenParams} {P Q : G₁}

-- Every point has one serialization.
def Canonical (g1 : BytesN 64 → Option G₁) : Prop := ∀ p q P, g1 p = some P → g1 q = some P → p = q

section Verify

-- A call of the group succeeds on points of the group, with the point computed.
theorem bn254G1Mul_ok (hlaws : host.Lawful pairing g1 g2) {p : G1Point} (hp : g1 p.bytes = some P) (s : Scalar) :
    ∃ point, bn254G1Mul host p s = some (.ok point) ∧ g1 point.bytes = some (s.value • P) := by
  have hmul := hlaws.g1Mul p.bytes s.bytes
  rw [hp, Option.map_some] at hmul
  obtain ⟨bytes, hbytes, hpoint⟩ := Option.map_eq_some_iff.mp hmul
  refine ⟨⟨bytes⟩, ?_, hpoint⟩
  rw [bn254G1Mul, hbytes]
  rfl

theorem bn254G1Add_ok (hlaws : host.Lawful pairing g1 g2) {p q : G1Point} (hp : g1 p.bytes = some P)
    (hq : g1 q.bytes = some Q) :
    ∃ point, bn254G1Add host p q = some (.ok point) ∧ g1 point.bytes = some (P + Q) := by
  have hadd := hlaws.g1Add p.bytes q.bytes
  rw [hp, hq, Option.bind_some, Option.map_some] at hadd
  obtain ⟨bytes, hbytes, hpoint⟩ := Option.map_eq_some_iff.mp hadd
  refine ⟨⟨bytes⟩, ?_, hpoint⟩
  rw [bn254G1Add, hbytes]
  rfl

theorem pedersenCommit_ok (hlaws : host.Lawful pairing g1 g2) (hg : g1 params.g.bytes = some P)
    (hh : g1 params.h.bytes = some Q) (value blinding : Scalar) :
    ∃ commitment, pedersenCommit host params value blinding = some (.ok commitment) ∧
      g1 commitment.point.bytes = some (Pedersen.commit P Q value.value blinding.value) := by
  obtain ⟨vg, hvg, hV⟩ := bn254G1Mul_ok hlaws hg value
  obtain ⟨rh, hrh, hR⟩ := bn254G1Mul_ok hlaws hh blinding
  obtain ⟨point, hpoint, hsum⟩ := bn254G1Add_ok hlaws hV hR
  refine ⟨⟨point⟩, ?_, hsum⟩
  rw [pedersenCommit, hvg]
  change bn254G1Mul host params.h blinding >>= _ = _
  rw [hrh]
  change bn254G1Add host vg rh >>= _ = _
  rw [hpoint]
  rfl

theorem pedersenVerify_eq_true_iff (hlaws : host.Lawful pairing g1 g2) (hcanonical : Canonical g1)
    (hg : g1 params.g.bytes = some P) (hh : g1 params.h.bytes = some Q) (commitment : PedersenCommitment)
    (value blinding : Scalar) :
    pedersenVerify host params commitment value blinding = some (.ok true) ↔
      g1 commitment.point.bytes = some (Pedersen.commit P Q value.value blinding.value) := by
  obtain ⟨expected, hcall, hexpected⟩ := pedersenCommit_ok hlaws hg hh value blinding
  have hanswer : pedersenVerify host params commitment value blinding =
      some (.ok (commitment.point.bytes == expected.point.bytes)) := by
    rw [pedersenVerify, hcall]
    rfl
  rw [hanswer]
  constructor
  · intro hsame
    have hbytes := eq_of_beq (Except.ok.inj (Option.some.inj hsame))
    rw [hbytes, hexpected]
  · intro hpoint
    rw [hcanonical _ _ _ hpoint hexpected, beq_self_eq_true]

end Verify

section Binding

omit [DecidableEq G] in
-- The points form a module over the integers modulo the order, which is a field.
theorem openings_agree_iff (pairing : Pairing G₁ G₂ G) (hP : P ≠ 0) {v r v' r' : Nat}
    (hvalue : ¬v ≡ v' [MOD Nat.card G]) :
    Pedersen.commit P Q v r = Pedersen.commit P Q v' r' ↔
      ∃ log : Int, Q = log • P ∧ log * (r' - r) ≡ v - v' [ZMOD Nat.card G] := by
  have : Fact (Nat.card G).Prime := ⟨pairing.prime⟩
  let : Module (ZMod (Nat.card G)) G₁ := AddCommGroup.zmodModule pairing.order_nsmul
  have hdistinct : (v : ZMod (Nat.card G)) ≠ v' := mt (ZMod.natCast_eq_natCast_iff v v' _).mp hvalue
  have hlog : Pedersen.commit P Q (v : ZMod (Nat.card G)) r =
      Pedersen.commit P Q (v' : ZMod (Nat.card G)) r' ↔ _ :=
    Pedersen.commit_eq_iff_log hP hdistinct
  simp only [Pedersen.commit, Nat.cast_smul_eq_nsmul] at hlog
  rw [Pedersen.commit, Pedersen.commit, hlog]
  constructor
  · rintro ⟨hblinding, hQ⟩
    have hdiff : (r' - r : ZMod (Nat.card G)) ≠ 0 := sub_ne_zero.mpr (Ne.symm hblinding)
    refine ⟨((v - v') / (r' - r) : ZMod (Nat.card G)).val, ?_, ?_⟩
    · rw [natCast_zsmul, ← Nat.cast_smul_eq_nsmul (ZMod (Nat.card G)), ZMod.natCast_zmod_val]
      exact hQ
    · rw [← ZMod.intCast_eq_intCast_iff]
      push_cast
      rw [ZMod.natCast_zmod_val, div_mul_cancel₀ _ hdiff]
  · rintro ⟨log, hQ, hcongr⟩
    rw [← ZMod.intCast_eq_intCast_iff] at hcongr
    push_cast at hcongr
    have hblinding : (r : ZMod (Nat.card G)) ≠ r' := by
      intro hsame
      rw [hsame, sub_self, mul_zero] at hcongr
      exact hdistinct (sub_eq_zero.mp hcongr.symm)
    have hdiff : (r' - r : ZMod (Nat.card G)) ≠ 0 := sub_ne_zero.mpr (Ne.symm hblinding)
    refine ⟨hblinding, ?_⟩
    rw [← eq_div_of_mul_eq hdiff hcongr, Int.cast_smul_eq_zsmul]
    exact hQ

-- Whoever opens a commitment to two values gives away the logarithm of the blinding generator; and who has it
-- opens every commitment to any value.
theorem pedersenVerify_second_iff (hlaws : host.Lawful pairing g1 g2) (hcanonical : Canonical g1)
    (hg : g1 params.g.bytes = some P) (hh : g1 params.h.bytes = some Q) (hP : P ≠ 0)
    (commitment : PedersenCommitment) (value blinding value' blinding' : Scalar)
    (hopens : pedersenVerify host params commitment value blinding = some (.ok true))
    (hvalue : ¬value.value ≡ value'.value [MOD Nat.card G]) :
    pedersenVerify host params commitment value' blinding' = some (.ok true) ↔
      ∃ log : Int, Q = log • P ∧
        log * (blinding'.value - blinding.value) ≡ value.value - value'.value [ZMOD Nat.card G] := by
  rw [pedersenVerify_eq_true_iff hlaws hcanonical hg hh] at hopens ⊢
  rw [hopens, Option.some_inj, openings_agree_iff pairing hP hvalue]

-- The blinding generator is the negative of the other one, so that both openings are to the point at infinity.
def sampleParams : PedersenParams where
  g := ⟨encodeG1 1⟩
  h := ⟨encodeG1 (-1)⟩

def scalarOf (value : Nat) : Scalar := ⟨bigEndian 32 value⟩

theorem decodeG1_sampleParams : decodeG1 sampleParams.g.bytes = some 1 ∧
    decodeG1 sampleParams.h.bytes = some (-1) :=
  ⟨decodeG1_encodeG1 1, decodeG1_encodeG1 (-1)⟩

theorem canonical_decodeG1 : Canonical decodeG1 := by
  have hencode : ∀ p P, decodeG1 p = some P → encodeG1 P = p := by
    intro p P hp
    rw [decodeG1] at hp
    simpa using List.find?_some hp
  intro p q P hp hq
  rw [← hencode p P hp, hencode q P hq]

theorem card_sample : Nat.card (Multiplicative (ZMod 3)) = 3 := by
  rw [Nat.card_congr Multiplicative.toAdd, Nat.card_zmod]

theorem value_scalarOf : (scalarOf 0).value = 0 ∧ (scalarOf 1).value = 1 := by decide

theorem sample_opens {point : ZMod 3} {value blinding : Scalar}
    (hpoint : point = Pedersen.commit 1 (-1) value.value blinding.value) :
    pedersenVerify sampleHost sampleParams ⟨⟨encodeG1 point⟩⟩ value blinding = some (.ok true) := by
  rw [pedersenVerify_eq_true_iff sampleHost_lawful canonical_decodeG1 decodeG1_sampleParams.1
    decodeG1_sampleParams.2, decodeG1_encodeG1, hpoint]

theorem infinity_opens (x : Nat) (hx : (scalarOf x).value = x) :
    pedersenVerify sampleHost sampleParams ⟨⟨encodeG1 0⟩⟩ (scalarOf x) (scalarOf x) = some (.ok true) := by
  apply sample_opens
  rw [hx, Pedersen.commit, ← smul_add]
  exact (smul_zero x).symm

theorem infinity_opened_twice :
    pedersenVerify sampleHost sampleParams ⟨⟨encodeG1 0⟩⟩ (scalarOf 1) (scalarOf 1) = some (.ok true) ↔
      ∃ log : Int, (-1 : ZMod 3) = log • 1 ∧
        log * ((scalarOf 1).value - (scalarOf 0).value) ≡ (scalarOf 0).value - (scalarOf 1).value
          [ZMOD Nat.card (Multiplicative (ZMod 3))] := by
  refine pedersenVerify_second_iff sampleHost_lawful canonical_decodeG1 decodeG1_sampleParams.1
    decodeG1_sampleParams.2 one_ne_zero _ _ _ _ _ (infinity_opens 0 value_scalarOf.1) ?_
  rw [card_sample, value_scalarOf.1, value_scalarOf.2]
  decide

end Binding

section Sums

-- What a player hands in with a commitment.
structure Opening where
  commitment : PedersenCommitment
  value : Scalar
  blinding : Scalar

-- Commitments are added one after the other.
def addCommitments (host : Bn254) (first : PedersenCommitment) (rest : List PedersenCommitment) :
    Outcome PedersenCommitment :=
  rest.foldlM
    (fun total commitment => do return { point := ← bn254G1Add host total.point commitment.point }) first

theorem addCommitments_ok (hlaws : host.Lawful pairing g1 g2) {first : PedersenCommitment} {C : G₁}
    (hfirst : g1 first.point.bytes = some C) {rest : List Opening}
    (hrest : ∀ opening ∈ rest, g1 opening.commitment.point.bytes =
      some (Pedersen.commit P Q opening.value.value opening.blinding.value)) :
    ∃ total, addCommitments host first (rest.map Opening.commitment) = some (.ok total) ∧
      g1 total.point.bytes =
        some (C + (rest.map fun opening =>
          Pedersen.commit P Q opening.value.value opening.blinding.value).sum) := by
  induction rest generalizing first C with
  | nil => exact ⟨first, rfl, by rw [List.map_nil, List.sum_nil, add_zero, hfirst]⟩
  | cons opening rest ih =>
      obtain ⟨hopening, hrest⟩ := List.forall_mem_cons.mp hrest
      obtain ⟨point, hpoint, hsum⟩ := bn254G1Add_ok hlaws hfirst hopening
      have hturn : (do return { point := ← bn254G1Add host first.point opening.commitment.point } :
          Outcome PedersenCommitment) = some (.ok ⟨point⟩) := by
        rw [hpoint]
        rfl
      obtain ⟨total, htotal, hall⟩ := @ih ⟨point⟩ _ hsum hrest
      refine ⟨total, ?_, ?_⟩
      · rw [addCommitments, List.map_cons, List.foldlM_cons, hturn]
        exact htotal
      · rw [hall, List.map_cons, List.sum_cons, add_assoc]

omit [DecidableEq G] in
theorem commit_congr (pairing : Pairing G₁ G₂ G) (P Q : G₁) {v v' r r' : Nat} (hv : v ≡ v' [MOD Nat.card G])
    (hr : r ≡ r' [MOD Nat.card G]) : Pedersen.commit P Q v r = Pedersen.commit P Q v' r' := by
  rw [Pedersen.commit, Pedersen.commit, pairing.nsmul_congr P hv, pairing.nsmul_congr Q hr]

-- The sum of commitments that open is opened by the sums of the values and of the blinding factors, taken
-- modulo the order.
theorem pedersenVerify_addCommitments (hlaws : host.Lawful pairing g1 g2) (hcanonical : Canonical g1)
    (hg : g1 params.g.bytes = some P) (hh : g1 params.h.bytes = some Q) (first : Opening) (rest : List Opening)
    (hopens : ∀ opening ∈ first :: rest,
      pedersenVerify host params opening.commitment opening.value opening.blinding = some (.ok true)) :
    ∃ total, addCommitments host first.commitment (rest.map Opening.commitment) = some (.ok total) ∧
      ∀ value blinding : Scalar,
        value.value ≡ ((first :: rest).map fun opening => opening.value.value).sum [MOD Nat.card G] →
        blinding.value ≡ ((first :: rest).map fun opening => opening.blinding.value).sum [MOD Nat.card G] →
        pedersenVerify host params total value blinding = some (.ok true) := by
  simp only [pedersenVerify_eq_true_iff hlaws hcanonical hg hh] at hopens ⊢
  obtain ⟨hfirst, hrest⟩ := List.forall_mem_cons.mp hopens
  obtain ⟨total, htotal, hpoint⟩ := addCommitments_ok hlaws hfirst hrest
  refine ⟨total, htotal, fun value blinding hvalue hblinding => ?_⟩
  rw [hpoint, commit_congr pairing P Q hvalue hblinding, Pedersen.commit_sum, List.map_cons, List.sum_cons]

theorem infinity_and_generator_added :
    ∃ total, addCommitments sampleHost ⟨⟨encodeG1 0⟩⟩ [⟨⟨encodeG1 1⟩⟩] = some (.ok total) ∧
      ∀ value blinding : Scalar,
        value.value ≡ ([⟨⟨⟨encodeG1 0⟩⟩, scalarOf 0, scalarOf 0⟩,
          ⟨⟨⟨encodeG1 1⟩⟩, scalarOf 1, scalarOf 0⟩].map
          fun opening : Opening => opening.value.value).sum [MOD Nat.card (Multiplicative (ZMod 3))] →
        blinding.value ≡ ([⟨⟨⟨encodeG1 0⟩⟩, scalarOf 0, scalarOf 0⟩,
          ⟨⟨⟨encodeG1 1⟩⟩, scalarOf 1, scalarOf 0⟩].map
          fun opening : Opening => opening.blinding.value).sum [MOD Nat.card (Multiplicative (ZMod 3))] →
        pedersenVerify sampleHost sampleParams total value blinding = some (.ok true) := by
  refine pedersenVerify_addCommitments sampleHost_lawful canonical_decodeG1 decodeG1_sampleParams.1
    decodeG1_sampleParams.2 ⟨⟨⟨encodeG1 0⟩⟩, scalarOf 0, scalarOf 0⟩
    [⟨⟨⟨encodeG1 1⟩⟩, scalarOf 1, scalarOf 0⟩] ?_
  intro opening hopening
  rcases List.mem_cons.mp hopening with rfl | hopening
  · exact infinity_opens 0 value_scalarOf.1
  · rw [List.mem_singleton.mp hopening]
    apply sample_opens
    rw [value_scalarOf.1, value_scalarOf.2, Pedersen.commit, one_smul, zero_smul, add_zero]

end Sums

end Cougr.Zk
