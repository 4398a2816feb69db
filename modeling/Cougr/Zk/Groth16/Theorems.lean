import Cougr.Zk.Groth16
import Cougr.Library.Pairing

namespace Cougr.Zk

-- A scalar is read as a big-endian integer. Multiples of a point depend on it modulo the order
-- of the group only, so the reduction of the host does not show.
def Scalar.value (scalar : Scalar) : Nat :=
  scalar.bytes.toList.foldl (fun value byte => 256 * value + byte.toNat) 0

variable {G₁ G₂ G : Type} [AddCommGroup G₁] [AddCommGroup G₂] [CommGroup G] [DecidableEq G]

-- The host computes in the groups of the pairing. `g1` and `g2` read serialized points; on
-- anything else a call traps.
structure Bn254.Lawful (host : Bn254) (pairing : Pairing G₁ G₂ G) (g1 : BytesN 64 → Option G₁)
    (g2 : BytesN 128 → Option G₂) : Prop where
  g1Add : ∀ p q, (host.g1Add p q).map g1 = (g1 p).bind fun P => (g1 q).map fun Q => some (P + Q)
  g1Mul : ∀ p s, (host.g1Mul p s).map g1 = (g1 p).map fun P => some (Scalar.value ⟨s⟩ • P)
  pairingCheck : ∀ ps qs, ps.length = qs.length → ps ≠ [] → host.pairingCheck ps qs =
    (ps.mapM g1).bind fun Ps => (qs.mapM g2).map fun Qs =>
      decide ((List.zipWith pairing.e Ps Qs).prod = 1)

-- The points of a verification key and a proof.
structure Points (G₁ G₂ : Type) where
  a : G₁
  b : G₂
  c : G₁
  alpha : G₁
  beta : G₂
  gamma : G₂
  delta : G₂
  ic : List G₁

namespace Points

def decode (g1 : BytesN 64 → Option G₁) (g2 : BytesN 128 → Option G₂) (vk : VerificationKey)
    (proof : Groth16Proof) : Option (Points G₁ G₂) := do
  let a ← g1 proof.a.bytes
  let b ← g2 proof.b.bytes
  let c ← g1 proof.c.bytes
  let alpha ← g1 vk.alpha.bytes
  let beta ← g2 vk.beta.bytes
  let gamma ← g2 vk.gamma.bytes
  let delta ← g2 vk.delta.bytes
  let ic ← vk.ic.mapM fun point => g1 point.bytes
  return { a, b, c, alpha, beta, gamma, delta, ic }

-- IC[0] + sum x_i * IC[i+1]
def vkX (points : Points G₁ G₂) (publicInputs : List Scalar) : G₁ :=
  points.ic.headD 0 + (List.zipWith (fun x P => Scalar.value x • P) publicInputs points.ic.tail).sum

-- The two sides of the verification equation of the documentation.
def left (pairing : Pairing G₁ G₂ G) (points : Points G₁ G₂) : G := pairing.e points.a points.b

def right (pairing : Pairing G₁ G₂ G) (points : Points G₁ G₂) (publicInputs : List Scalar) : G :=
  pairing.e points.alpha points.beta * pairing.e (points.vkX publicInputs) points.gamma *
    pairing.e points.c points.delta

end Points

variable {host : Bn254} {pairing : Pairing G₁ G₂ G} {g1 : BytesN 64 → Option G₁}
  {g2 : BytesN 128 → Option G₂}

section Accumulate

-- The group element that a call returned, if it returned one.
def element (g1 : BytesN 64 → Option G₁) : Outcome G1Point → Option G₁
  | some (.ok point) => g1 point.bytes
  | _ => none

omit [AddCommGroup G₁] in
theorem element_bind (outcome : Outcome G1Point) (next : G1Point → Outcome G1Point)
    (result : G₁ → Option G₁) (hnext : ∀ point, element g1 (next point) = (g1 point.bytes).bind result) :
    element g1 (outcome >>= next) = (element g1 outcome).bind result := by
  match outcome with
  | none => rfl
  | some (.error _) => rfl
  | some (.ok point) => exact hnext point

theorem element_bn254G1Add (hlaws : host.Lawful pairing g1 g2) (p q : G1Point) :
    element g1 (bn254G1Add host p q) = (g1 p.bytes).bind fun P => (g1 q.bytes).map fun Q => P + Q := by
  have hcall : element g1 (bn254G1Add host p q) = ((host.g1Add p.bytes q.bytes).map g1).join := by
    unfold bn254G1Add
    cases host.g1Add p.bytes q.bytes <;> rfl
  rw [hcall, hlaws.g1Add]
  cases g1 p.bytes <;> cases g1 q.bytes <;> rfl

theorem element_bn254G1Mul (hlaws : host.Lawful pairing g1 g2) (p : G1Point) (s : Scalar) :
    element g1 (bn254G1Mul host p s) = (g1 p.bytes).map fun P => s.value • P := by
  have hcall : element g1 (bn254G1Mul host p s) = ((host.g1Mul p.bytes s.bytes).map g1).join := by
    unfold bn254G1Mul
    cases host.g1Mul p.bytes s.bytes <;> rfl
  rw [hcall, hlaws.g1Mul]
  cases g1 p.bytes <;> rfl

theorem element_accumulate (hlaws : host.Lawful pairing g1 g2) {ic : List G1Point} {i : Nat}
    {icPoint : G1Point} (hic : ic[i + 1]? = some icPoint) (vkX : G1Point) (input : Scalar) :
    element g1 (accumulate host ic vkX (input, i)) =
      (g1 vkX.bytes).bind fun V => (g1 icPoint.bytes).map fun P => V + input.value • P := by
  have hterm : ∀ term : G1Point, element g1 (bn254G1Add host vkX term) =
      (g1 term.bytes).bind fun T => (g1 vkX.bytes).map fun V => V + T := by
    intro term
    rw [element_bn254G1Add hlaws]
    cases g1 vkX.bytes <;> cases g1 term.bytes <;> rfl
  have hbody : accumulate host ic vkX (input, i) =
      bn254G1Mul host icPoint input >>= fun term => bn254G1Add host vkX term := by
    simp only [accumulate, hic]
    rfl
  rw [hbody, element_bind _ _ _ hterm, element_bn254G1Mul hlaws]
  cases g1 vkX.bytes <;> cases g1 icPoint.bytes <;> rfl

-- The loop from position `k` on adds the multiples of the points that are left.
theorem element_foldlM_accumulate (hlaws : host.Lawful pairing g1 g2) (ic : List G1Point)
    (inputs : List Scalar) (k : Nat) (vkX : G1Point) (hlength : ic.length = k + 1 + inputs.length) :
    element g1 ((inputs.zipIdx k).foldlM (accumulate host ic) vkX) = (g1 vkX.bytes).bind fun V =>
      ((ic.drop (k + 1)).mapM fun point => g1 point.bytes).map fun Ps =>
        V + (List.zipWith (fun x P => Scalar.value x • P) inputs Ps).sum := by
  induction inputs generalizing k vkX with
  | nil =>
      rw [List.drop_eq_nil_of_le (by simp [hlength])]
      cases hvkX : g1 vkX.bytes <;> simp [element, pure, ExceptT.pure, ExceptT.mk, hvkX]
  | cons input inputs ih =>
      have hk : k + 1 < ic.length := by
        rw [hlength, List.length_cons]
        omega
      have hlength' : ic.length = k + 1 + 1 + inputs.length := by
        rw [hlength, List.length_cons]
        omega
      have hstep := element_accumulate hlaws (List.getElem?_eq_getElem hk) vkX input
      rw [List.zipIdx_cons, List.foldlM_cons, element_bind _ _ _ fun point => ih (k + 1) point hlength', hstep,
        List.drop_eq_getElem_cons hk, List.mapM_cons]
      cases g1 vkX.bytes with
      | none => rfl
      | some V =>
          cases hpoint : g1 ic[k + 1].bytes with
          | none => simp
          | some P =>
              cases (ic.drop (k + 1 + 1)).mapM fun point => g1 point.bytes with
              | none => simp
              | some Ps => simp [add_assoc]

end Accumulate

section Verify

omit [AddCommGroup G₁] in
theorem mapM_four_eq_some_iff {α : Type} (f : α → Option G₁) (p₁ p₂ p₃ p₄ : α) (Ps : List G₁) :
    [p₁, p₂, p₃, p₄].mapM f = some Ps ↔ ∃ P₁ P₂ P₃ P₄, f p₁ = some P₁ ∧ f p₂ = some P₂ ∧
      f p₃ = some P₃ ∧ f p₄ = some P₄ ∧ [P₁, P₂, P₃, P₄] = Ps := by
  simp only [List.mapM_cons, List.mapM_nil, Option.bind_eq_bind, Option.pure_def, Option.bind_eq_some_iff,
    Option.some.injEq]
  constructor
  · rintro ⟨P₁, h₁, _, ⟨P₂, h₂, _, ⟨P₃, h₃, _, ⟨P₄, h₄, _, rfl, rfl⟩, rfl⟩, rfl⟩, rfl⟩
    exact ⟨P₁, P₂, P₃, P₄, h₁, h₂, h₃, h₄, rfl⟩
  · intro hpoints
    obtain ⟨P₁, P₂, P₃, P₄, h₁, h₂, h₃, h₄, rfl⟩ := hpoints
    exact ⟨P₁, h₁, _, ⟨P₂, h₂, _, ⟨P₃, h₃, _, ⟨P₄, h₄, _, rfl, rfl⟩, rfl⟩, rfl⟩, rfl⟩

-- The test passes on four pairs of valid points whose pairings multiply to the unit.
theorem bn254PairingCheck_eq_true_iff (hlaws : host.Lawful pairing g1 g2) (p₁ p₂ p₃ p₄ : G1Point)
    (q₁ q₂ q₃ q₄ : G2Point) :
    bn254PairingCheck host [p₁, p₂, p₃, p₄] [q₁, q₂, q₃, q₄] = some (.ok true) ↔
      ∃ P₁ P₂ P₃ P₄ Q₁ Q₂ Q₃ Q₄, g1 p₁.bytes = some P₁ ∧ g1 p₂.bytes = some P₂ ∧
      g1 p₃.bytes = some P₃ ∧
        g1 p₄.bytes = some P₄ ∧ g2 q₁.bytes = some Q₁ ∧ g2 q₂.bytes = some Q₂ ∧
        g2 q₃.bytes = some Q₃ ∧ g2 q₄.bytes = some Q₄ ∧
        pairing.e P₁ Q₁ * (pairing.e P₂ Q₂ * (pairing.e P₃ Q₃ * pairing.e P₄ Q₄)) = 1 := by
  have hcall : bn254PairingCheck host [p₁, p₂, p₃, p₄] [q₁, q₂, q₃, q₄] =
      (host.pairingCheck [p₁.bytes, p₂.bytes, p₃.bytes, p₄.bytes]
        [q₁.bytes, q₂.bytes, q₃.bytes, q₄.bytes]).map Except.ok := by
    cases hcheck : host.pairingCheck [p₁.bytes, p₂.bytes, p₃.bytes, p₄.bytes]
        [q₁.bytes, q₂.bytes, q₃.bytes, q₄.bytes] <;>
      simp [bn254PairingCheck, hcheck] <;> rfl
  rw [hcall, hlaws.pairingCheck _ _ rfl (List.cons_ne_nil _ _)]
  refine Option.map_eq_some_iff.trans ?_
  simp only [Option.map_eq_some_iff, Option.bind_eq_some_iff, mapM_four_eq_some_iff, Except.ok.injEq]
  constructor
  · rintro ⟨_, ⟨_, ⟨P₁, P₂, P₃, P₄, h₁, h₂, h₃, h₄, rfl⟩, _,
      ⟨Q₁, Q₂, Q₃, Q₄, k₁, k₂, k₃, k₄, rfl⟩, hprod⟩, htrue⟩
    have hone := of_decide_eq_true (hprod.trans htrue)
    exact ⟨P₁, P₂, P₃, P₄, Q₁, Q₂, Q₃, Q₄, h₁, h₂, h₃, h₄, k₁, k₂, k₃, k₄,
      by simpa using hone⟩
  · intro hpoints
    obtain ⟨P₁, P₂, P₃, P₄, Q₁, Q₂, Q₃, Q₄, h₁, h₂, h₃, h₄, k₁, k₂, k₃, k₄,
        hone⟩ := hpoints
    exact ⟨true, ⟨_, ⟨P₁, P₂, P₃, P₄, h₁, h₂, h₃, h₄, rfl⟩, _,
      ⟨Q₁, Q₂, Q₃, Q₄, k₁, k₂, k₃, k₄, rfl⟩, by simpa using hone⟩, rfl⟩

theorem verifyGroth16_of_length_ne (host : Bn254) {vk : VerificationKey} (proof : Groth16Proof)
    {publicInputs : List Scalar} (hlength : vk.ic.length ≠ publicInputs.length + 1) :
    verifyGroth16 host vk proof publicInputs = some (.error .InvalidVerificationKey) := by
  unfold verifyGroth16
  rw [if_pos hlength]
  rfl

theorem verifyGroth16_of_length (host : Bn254) {vk : VerificationKey} (proof : Groth16Proof) {first : G1Point}
    {rest : List G1Point} (hic : vk.ic = first :: rest) {publicInputs : List Scalar}
    (hlength : vk.ic.length = publicInputs.length + 1) : verifyGroth16 host vk proof publicInputs =
      publicInputs.zipIdx.foldlM (accumulate host vk.ic) first >>= fun vkX =>
        bn254PairingCheck host [proof.a, vk.alpha, vkX, proof.c] [proof.b, vk.beta, vk.gamma, vk.delta] := by
  have hfirst : vk.ic[0]? = some first := by
    rw [hic]
    rfl
  unfold verifyGroth16
  rw [if_neg (not_not.mpr hlength), hfirst]
  rfl

-- The points `vk_x` is computed from, all of them read by the loop.
theorem element_vkX (hlaws : host.Lawful pairing g1 g2) {vk : VerificationKey} {first : G1Point}
    {rest : List G1Point} (hic : vk.ic = first :: rest) {publicInputs : List Scalar}
    (hlength : rest.length = publicInputs.length) :
    element g1 (publicInputs.zipIdx.foldlM (accumulate host vk.ic) first) =
      (vk.ic.mapM fun point => g1 point.bytes).map fun Ps => Ps.headD 0 +
        (List.zipWith (fun x P => Scalar.value x • P) publicInputs Ps.tail).sum := by
  have hloop := element_foldlM_accumulate hlaws vk.ic publicInputs 0 first (by
    rw [hic, List.length_cons, hlength]
    omega)
  rw [hloop, hic, List.mapM_cons]
  cases g1 first.bytes with
  | none => rfl
  | some P =>
      rw [List.drop_succ_cons, List.drop_zero]
      cases rest.mapM fun point => g1 point.bytes <;> simp

-- What the code tests: the product of the four pairings, none of them inverted.
theorem verifyGroth16_eq_true_iff (hlaws : host.Lawful pairing g1 g2) (vk : VerificationKey)
    (proof : Groth16Proof) (publicInputs : List Scalar) (hlength : vk.ic.length = publicInputs.length + 1) :
    verifyGroth16 host vk proof publicInputs = some (.ok true) ↔
      ∃ points, Points.decode g1 g2 vk proof = some points ∧
        points.left pairing * points.right pairing publicInputs = 1 := by
  obtain ⟨first, rest, hic⟩ := List.exists_cons_of_length_eq_add_one hlength
  have hrest : rest.length = publicInputs.length := by
    rw [hic, List.length_cons] at hlength
    exact Nat.succ.inj hlength
  have hvkX := element_vkX hlaws hic hrest
  rw [verifyGroth16_of_length host proof hic hlength, Outcome.bind_eq_ok_iff]
  simp only [bn254PairingCheck_eq_true_iff hlaws]
  constructor
  · intro haccepted
    obtain ⟨vkX, hloop, A, α, V, C, B, β, γ, δ, ha, hα, hV, hc, hb, hβ, hγ, hδ, hone⟩ := haccepted
    rw [hloop] at hvkX
    obtain ⟨ic, hdecode, hsum⟩ := Option.map_eq_some_iff.mp (hvkX.symm.trans hV)
    refine ⟨⟨A, B, C, α, β, γ, δ, ic⟩, ?_, ?_⟩
    · simp [Points.decode, ha, hb, hc, hα, hβ, hγ, hδ, hdecode]
    · rw [← hsum] at hone
      simpa only [Points.left, Points.right, Points.vkX, mul_assoc] using hone
  · intro hpoints
    obtain ⟨points, hdecode, hone⟩ := hpoints
    simp only [Points.decode, Option.bind_eq_bind, Option.bind_eq_some_iff, Option.pure_def,
      Option.some.injEq] at hdecode
    obtain ⟨A, ha, B, hb, C, hc, α, hα, β, hβ, γ, hγ, δ, hδ, ic, hic', rfl⟩ := hdecode
    rw [hic', Option.map_some] at hvkX
    match hloop : publicInputs.zipIdx.foldlM (accumulate host vk.ic) first with
    | none => simp [hloop, element] at hvkX
    | some (.error _) => simp [hloop, element] at hvkX
    | some (.ok vkX) =>
        rw [hloop] at hvkX
        exact ⟨vkX, rfl, A, α, _, C, B, β, γ, δ, ha, hα, hvkX, hc, hb, hβ, hγ, hδ, by
          simpa only [Points.left, Points.right, Points.vkX, mul_assoc] using hone⟩

-- So the code accepts a proof exactly when the documented equation holds with -A in place of A.
theorem verifyGroth16_eq_true_iff_neg (hlaws : host.Lawful pairing g1 g2) (vk : VerificationKey)
    (proof : Groth16Proof) (publicInputs : List Scalar) (hlength : vk.ic.length = publicInputs.length + 1) :
    verifyGroth16 host vk proof publicInputs = some (.ok true) ↔
      ∃ points, Points.decode g1 g2 vk proof = some points ∧
        pairing.e (-points.a) points.b = points.right pairing publicInputs := by
  rw [verifyGroth16_eq_true_iff hlaws vk proof publicInputs hlength]
  refine exists_congr fun points => and_congr_right fun _ => ?_
  rw [pairing.neg_left, mul_eq_one_iff_inv_eq]
  rfl

-- The equation of the documentation, between the points that the key and the proof encode.
def Balanced (pairing : Pairing G₁ G₂ G) (g1 : BytesN 64 → Option G₁) (g2 : BytesN 128 → Option G₂)
    (vk : VerificationKey) (proof : Groth16Proof) (publicInputs : List Scalar) : Prop :=
  ∃ points, Points.decode g1 g2 vk proof = some points ∧
    points.left pairing = points.right pairing publicInputs

theorem verifyGroth16_correct_iff (hlaws : host.Lawful pairing g1 g2) (vk : VerificationKey)
    (proof : Groth16Proof) (publicInputs : List Scalar) :
    (vk.ic.length ≠ publicInputs.length + 1 →
      verifyGroth16 host vk proof publicInputs = some (.error .InvalidVerificationKey)) ∧
    (vk.ic.length = publicInputs.length + 1 →
      ((verifyGroth16 host vk proof publicInputs = some (.ok true) ↔
          Balanced pairing g1 g2 vk proof publicInputs) ↔
        ∀ points, Points.decode g1 g2 vk proof = some points →
          points.right pairing publicInputs = 1 ∨
          points.left pairing ≠ points.right pairing publicInputs ∧
          points.left pairing ≠ (points.right pairing publicInputs)⁻¹)) := by
  refine ⟨verifyGroth16_of_length_ne host proof, fun hlength => ?_⟩
  rw [verifyGroth16_eq_true_iff hlaws vk proof publicInputs hlength, Balanced]
  cases Points.decode g1 g2 vk proof with
  | none => simp
  | some points => simpa using pairing.mul_eq_one_iff_eq_iff (points.left pairing) _

end Verify

section Sample

-- Groups of order three under the encodings of infinity, the generators and their negatives. On
-- multiples of the generators by 0, 1 and -1 they agree with the curve.
def baseField : Nat := 21888242871839275222246405745257275088696311157297823662689037894645226208583

def encodeG1 (x : ZMod 3) : BytesN 64 :=
  bigEndian 64 (![0, 1 * 2 ^ 256 + 2, 1 * 2 ^ 256 + (baseField - 2)] x)

-- An element of the extension field is written with its second coefficient first.
def generatorG2 (negated : Bool) : Nat :=
  let x₁ := 11559732032986387107991004021392285783925812861821192530917403151452391805634
  let x₀ := 10857046999023057135944570762232829481370756359578518086990519993285655852781
  let y₁ := 4082367875863433681332203403145435568316851327593401208105741076214120093531
  let y₀ := 8495653923123431417604973247489272438418190587263600148770280649306958101930
  if negated then x₁ * 2 ^ 768 + x₀ * 2 ^ 512 + (baseField - y₁) * 2 ^ 256 + (baseField - y₀)
  else x₁ * 2 ^ 768 + x₀ * 2 ^ 512 + y₁ * 2 ^ 256 + y₀

def encodeG2 (x : ZMod 3) : BytesN 128 :=
  bigEndian 128 (![0, generatorG2 false, generatorG2 true] x)

def decodeG1 (bytes : BytesN 64) : Option (ZMod 3) := [0, 1, 2].find? fun x => encodeG1 x = bytes

def decodeG2 (bytes : BytesN 128) : Option (ZMod 3) := [0, 1, 2].find? fun x => encodeG2 x = bytes

-- Encodings with different last bytes are different.
theorem bigEndian_mod {width a b : Nat} (hwidth : 0 < width) (h : bigEndian width a = bigEndian width b) :
    a % 256 = b % 256 := by
  have hlast : ∀ value, (bigEndian width value)[width - 1] = UInt8.ofNat value := by
    intro value
    rw [bigEndian, Vector.getElem_ofFn, Nat.sub_self, pow_zero, Nat.div_one]
  have hbyte : UInt8.ofNat a = UInt8.ofNat b := by rw [← hlast, ← hlast, h]
  have hvalue := congrArg UInt8.toNat hbyte
  rwa [UInt8.toNat_ofNat', UInt8.toNat_ofNat'] at hvalue

theorem find?_encode {width : Nat} (encode : ZMod 3 → BytesN width)
    (hinj : ∀ x y, encode x = encode y → x = y) (x : ZMod 3) :
    [0, 1, 2].find? (fun y => encode y = encode x) = some x := by
  have hsame : (fun y => decide (encode y = encode x)) = fun y => decide (y = x) := by
    funext y
    rw [decide_eq_decide]
    exact ⟨hinj y x, congrArg encode⟩
  have hfind : ∀ x : ZMod 3, [0, 1, 2].find? (fun y => decide (y = x)) = some x := by decide
  rw [hsame, hfind]

theorem decodeG1_encodeG1 (x : ZMod 3) : decodeG1 (encodeG1 x) = some x := by
  have hbytes : ∀ x y : ZMod 3, (![0, 1 * 2 ^ 256 + 2, 1 * 2 ^ 256 + (baseField - 2)] x : Nat) % 256 =
      ![0, 1 * 2 ^ 256 + 2, 1 * 2 ^ 256 + (baseField - 2)] y % 256 → x = y := by decide +kernel
  apply find?_encode encodeG1
  intro x y h
  exact hbytes x y (bigEndian_mod (Nat.succ_pos 63) h)

theorem decodeG2_encodeG2 (x : ZMod 3) : decodeG2 (encodeG2 x) = some x := by
  have hbytes : ∀ x y : ZMod 3, (![0, generatorG2 false, generatorG2 true] x : Nat) % 256 =
      ![0, generatorG2 false, generatorG2 true] y % 256 → x = y := by decide +kernel
  apply find?_encode encodeG2
  intro x y h
  exact hbytes x y (bigEndian_mod (Nat.succ_pos 127) h)

def samplePairing : Pairing (ZMod 3) (ZMod 3) (Multiplicative (ZMod 3)) where
  e P Q := Multiplicative.ofAdd (P * Q)
  add_left P P' Q := by rw [add_mul, ofAdd_add]
  add_right P Q Q' := by rw [mul_add, ofAdd_add]
  eq_zero_left := by decide
  eq_zero_right := by decide
  prime := by
    rw [Nat.card_congr Multiplicative.toAdd, Nat.card_zmod]
    exact Nat.prime_three
  two_lt := by
    rw [Nat.card_congr Multiplicative.toAdd, Nat.card_zmod]
    exact Nat.lt_succ_self 2

def sampleHost : Bn254 where
  g1Add p q := (decodeG1 p).bind fun P => (decodeG1 q).map fun Q => encodeG1 (P + Q)
  g1Mul p s := (decodeG1 p).map fun P => encodeG1 (Scalar.value ⟨s⟩ • P)
  pairingCheck ps qs := (ps.mapM decodeG1).bind fun Ps => (qs.mapM decodeG2).map fun Qs =>
    decide ((List.zipWith samplePairing.e Ps Qs).prod = 1)

theorem sampleHost_lawful : sampleHost.Lawful samplePairing decodeG1 decodeG2 where
  g1Add p q := by
    simp only [sampleHost]
    cases decodeG1 p <;> cases decodeG1 q <;> simp [decodeG1_encodeG1]
  g1Mul p s := by
    simp only [sampleHost]
    cases decodeG1 p <;> simp [decodeG1_encodeG1]
  pairingCheck ps qs _ _ := rfl

def sampleKey (alpha : ZMod 3) (beta : ZMod 3) : VerificationKey where
  alpha := ⟨encodeG1 alpha⟩
  beta := ⟨encodeG2 beta⟩
  gamma := ⟨encodeG2 1⟩
  delta := ⟨encodeG2 1⟩
  ic := [⟨encodeG1 0⟩]

def sampleProof (a : ZMod 3) (b : ZMod 3) : Groth16Proof where
  a := ⟨encodeG1 a⟩
  b := ⟨encodeG2 b⟩
  c := ⟨encodeG1 0⟩

theorem decode_sample : ∀ alpha beta a b, Points.decode decodeG1 decodeG2 (sampleKey alpha beta)
    (sampleProof a b) = some ⟨a, b, 0, alpha, beta, 1, 1, [0]⟩ := by
  intro alpha beta a b
  simp [Points.decode, sampleKey, sampleProof, decodeG1_encodeG1, decodeG2_encodeG2]

-- The pairing of the generators balances itself, and the code rejects it: it tests the square.
theorem balanced_rejected :
    sampleHost.Lawful samplePairing decodeG1 decodeG2 ∧
      Balanced samplePairing decodeG1 decodeG2 (sampleKey 1 1) (sampleProof 1 1) [] ∧
      verifyGroth16 sampleHost (sampleKey 1 1) (sampleProof 1 1) [] ≠ some (.ok true) := by
  refine ⟨sampleHost_lawful, ⟨_, decode_sample 1 1 1 1, by decide⟩, fun haccepted => ?_⟩
  obtain ⟨points, hdecode, hone⟩ :=
    (verifyGroth16_eq_true_iff sampleHost_lawful (sampleKey 1 1) (sampleProof 1 1) [] rfl).mp haccepted
  rw [decode_sample] at hdecode
  cases hdecode
  revert hone
  decide

-- With points at infinity only, both sides are the unit and the code is right.
theorem verifyGroth16_infinity :
    verifyGroth16 sampleHost (sampleKey 0 0) (sampleProof 0 0) [] = some (.ok true) ↔
      Balanced samplePairing decodeG1 decodeG2 (sampleKey 0 0) (sampleProof 0 0) [] := by
  apply ((verifyGroth16_correct_iff sampleHost_lawful (sampleKey 0 0) (sampleProof 0 0) []).2 rfl).mpr
  intro points hdecode
  rw [decode_sample] at hdecode
  cases hdecode
  exact Or.inl (by decide)

end Sample

end Cougr.Zk
