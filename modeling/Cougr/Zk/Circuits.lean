import Cougr.Zk.Commitment
import Cougr.Zk.Scalars

namespace Cougr.Zk

def bytes32ToScalar (val : BytesN 32) : Scalar := { bytes := val }

class GameCircuit (C : Type) where
  verificationKey : C → VerificationKey

def verifyWithInputs {C : Type} [GameCircuit C] (host : Bn254) (circuit : C) (proof : Groth16Proof)
    (publicInputs : List Scalar) : Outcome Bool :=
  verifyGroth16 host (GameCircuit.verificationKey circuit) proof publicInputs

structure MovementCircuit where
  vk : VerificationKey
  maxDistance : UInt32

instance : GameCircuit MovementCircuit where
  verificationKey := MovementCircuit.vk

def MovementCircuit.verifyMove (host : Bn254) (circuit : MovementCircuit) (proof : Groth16Proof)
    (fromX fromY toX toY : Int32) : Outcome Bool :=
  verifyWithInputs host circuit proof
    [i32ToScalar fromX, i32ToScalar fromY, i32ToScalar toX, i32ToScalar toY, u32ToScalar circuit.maxDistance]

structure CombatCircuit where
  vk : VerificationKey

instance : GameCircuit CombatCircuit where
  verificationKey := CombatCircuit.vk

def CombatCircuit.verifyDamage (host : Bn254) (circuit : CombatCircuit) (proof : Groth16Proof)
    (attackerCommitment defenderCommitment : BytesN 32) (damageResult : UInt32) : Outcome Bool :=
  verifyWithInputs host circuit proof
    [bytes32ToScalar attackerCommitment, bytes32ToScalar defenderCommitment, u32ToScalar damageResult]

structure InventoryCircuit where
  vk : VerificationKey

instance : GameCircuit InventoryCircuit where
  verificationKey := InventoryCircuit.vk

def InventoryCircuit.verifyHasItem (host : Bn254) (circuit : InventoryCircuit) (proof : Groth16Proof)
    (inventoryRoot : BytesN 32) (itemId : UInt32) : Outcome Bool :=
  verifyWithInputs host circuit proof [bytes32ToScalar inventoryRoot, u32ToScalar itemId]

structure TurnSequenceCircuit where
  vk : VerificationKey

instance : GameCircuit TurnSequenceCircuit where
  verificationKey := TurnSequenceCircuit.vk

def TurnSequenceCircuit.verifySequence (host : Bn254) (circuit : TurnSequenceCircuit) (proof : Groth16Proof)
    (initialState finalState : BytesN 32) (actionCount : UInt32) : Outcome Bool :=
  verifyWithInputs host circuit proof
    [bytes32ToScalar initialState, bytes32ToScalar finalState, u32ToScalar actionCount]

structure CustomCircuit where
  vk : VerificationKey
  publicInputs : List Scalar

instance : GameCircuit CustomCircuit where
  verificationKey := CustomCircuit.vk

def CustomCircuit.verify (host : Bn254) (circuit : CustomCircuit) (proof : Groth16Proof) : Outcome Bool :=
  verifyWithInputs host circuit proof circuit.publicInputs

structure CustomCircuitBuilder where
  vk : VerificationKey
  inputs : List Scalar

def CustomCircuit.builder (vk : VerificationKey) : CustomCircuitBuilder where
  vk := vk
  inputs := []

namespace CustomCircuitBuilder

variable (builder : CustomCircuitBuilder)

def addScalar (scalar : Scalar) : CustomCircuitBuilder := { builder with inputs := builder.inputs ++ [scalar] }

def addU32 (val : UInt32) : CustomCircuitBuilder := { builder with inputs := builder.inputs ++ [u32ToScalar val] }

def addI32 (val : Int32) : CustomCircuitBuilder := { builder with inputs := builder.inputs ++ [i32ToScalar val] }

def addBytes32 (val : BytesN 32) : CustomCircuitBuilder :=
  { builder with inputs := builder.inputs ++ [bytes32ToScalar val] }

def build : CustomCircuit where
  vk := builder.vk
  publicInputs := builder.inputs

end CustomCircuitBuilder

-- A call in the chain that builds a circuit.
inductive BuilderCall where
  | addScalar (scalar : Scalar)
  | addU32 (val : UInt32)
  | addI32 (val : Int32)
  | addBytes32 (val : BytesN 32)

namespace BuilderCall

def apply (builder : CustomCircuitBuilder) : BuilderCall → CustomCircuitBuilder
  | .addScalar scalar => builder.addScalar scalar
  | .addU32 val => builder.addU32 val
  | .addI32 val => builder.addI32 val
  | .addBytes32 val => builder.addBytes32 val

def scalar : BuilderCall → Scalar
  | .addScalar scalar => scalar
  | .addU32 val => u32ToScalar val
  | .addI32 val => i32ToScalar val
  | .addBytes32 val => bytes32ToScalar val

def Congruent (order : Nat) (call call' : BuilderCall) : Prop :=
  call.scalar.value ≡ call'.scalar.value [MOD order]

end BuilderCall

def buildCircuit (vk : VerificationKey) (calls : List BuilderCall) : CustomCircuit :=
  (calls.foldl BuilderCall.apply (CustomCircuit.builder vk)).build

section Build

theorem foldl_apply (builder : CustomCircuitBuilder) (calls : List BuilderCall) :
    calls.foldl BuilderCall.apply builder = ⟨builder.vk, builder.inputs ++ calls.map BuilderCall.scalar⟩ := by
  induction calls generalizing builder with
  | nil => rw [List.foldl_nil, List.map_nil, List.append_nil]
  | cons call calls ih =>
      have hcall : call.apply builder = ⟨builder.vk, builder.inputs ++ [call.scalar]⟩ := by cases call <;> rfl
      rw [List.foldl_cons, hcall, ih, List.map_cons, List.append_assoc, List.singleton_append]

theorem verify_buildCircuit (host : Bn254) (vk : VerificationKey) (calls : List BuilderCall)
    (proof : Groth16Proof) :
    (buildCircuit vk calls).verify host proof = verifyGroth16 host vk proof (calls.map BuilderCall.scalar) := by
  rw [buildCircuit, foldl_apply]
  rfl

-- The circuits of the crate are chains of the same calls.
theorem prebuilt_eq_buildCircuit (host : Bn254) (vk : VerificationKey) (proof : Groth16Proof) :
    (∀ maxDistance fromX fromY toX toY,
      (MovementCircuit.mk vk maxDistance).verifyMove host proof fromX fromY toX toY =
        (buildCircuit vk
          [.addI32 fromX, .addI32 fromY, .addI32 toX, .addI32 toY, .addU32 maxDistance]).verify host proof) ∧
    (∀ attacker defender damageResult,
      (CombatCircuit.mk vk).verifyDamage host proof attacker defender damageResult =
      (buildCircuit vk [.addBytes32 attacker, .addBytes32 defender, .addU32 damageResult]).verify host proof) ∧
    (∀ inventoryRoot itemId, (InventoryCircuit.mk vk).verifyHasItem host proof inventoryRoot itemId =
      (buildCircuit vk [.addBytes32 inventoryRoot, .addU32 itemId]).verify host proof) ∧
    ∀ initialState finalState actionCount,
      (TurnSequenceCircuit.mk vk).verifySequence host proof initialState finalState actionCount =
        (buildCircuit vk
          [.addBytes32 initialState, .addBytes32 finalState, .addU32 actionCount]).verify host proof :=
  ⟨fun _ _ _ _ _ => rfl, fun _ _ _ => rfl, fun _ _ => rfl, fun _ _ _ => rfl⟩

end Build

variable {G₁ G₂ G : Type} [AddCommGroup G₁] [AddCommGroup G₂] [CommGroup G] [DecidableEq G]
  {host : Bn254} {pairing : Pairing G₁ G₂ G} {g1 : BytesN 64 → Option G₁} {g2 : BytesN 128 → Option G₂}

section Reuse

theorem bn254PairingCheck_of_length (host : Bn254) {ps : List G1Point} {qs : List G2Point}
    (hlength : ps.length = qs.length) (hps : ps ≠ []) :
    bn254PairingCheck host ps qs =
      (host.pairingCheck (ps.map G1Point.bytes) (qs.map G2Point.bytes)).map Except.ok := by
  have hne : ps.isEmpty = false := List.isEmpty_eq_false_iff.mpr hps
  cases hcheck : host.pairingCheck (ps.map G1Point.bytes) (qs.map G2Point.bytes) <;>
    simp [bn254PairingCheck, hlength, hne, hcheck] <;> rfl

theorem Outcome.bind_ne_error {α β : Type} {outcome : Outcome α} {next : α → Outcome β} {error : ZKError}
    (houtcome : outcome ≠ some (.error error)) (hnext : ∀ value, next value ≠ some (.error error)) :
    (outcome >>= next) ≠ some (.error error) := by
  match outcome with
  | none => exact nofun
  | some (.error other) =>
      intro h
      cases h
      exact houtcome rfl
  | some (.ok value) => exact hnext value

theorem bn254G1Mul_ne_error (host : Bn254) (p : G1Point) (s : Scalar) (error : ZKError) :
    bn254G1Mul host p s ≠ some (.error error) := by
  unfold bn254G1Mul
  cases host.g1Mul p.bytes s.bytes <;> exact nofun

theorem bn254G1Add_ne_error (host : Bn254) (p q : G1Point) (error : ZKError) :
    bn254G1Add host p q ≠ some (.error error) := by
  unfold bn254G1Add
  cases host.g1Add p.bytes q.bytes <;> exact nofun

-- With a point for every input the loop can trap, but reports nothing.
theorem foldlM_accumulate_ne_error (host : Bn254) (ic : List G1Point) (inputs : List Scalar) (k : Nat)
    (vkX : G1Point) (hlength : ic.length = k + 1 + inputs.length) (error : ZKError) :
    (inputs.zipIdx k).foldlM (accumulate host ic) vkX ≠ some (.error error) := by
  induction inputs generalizing k vkX with
  | nil => exact nofun
  | cons input inputs ih =>
      have hk : k + 1 < ic.length := by
        rw [hlength, List.length_cons]
        omega
      have hlength' : ic.length = k + 1 + 1 + inputs.length := by
        rw [hlength, List.length_cons]
        omega
      have hbody : accumulate host ic vkX (input, k) =
          bn254G1Mul host ic[k + 1] input >>= fun term => bn254G1Add host vkX term := by
        simp only [accumulate, List.getElem?_eq_getElem hk]
        rfl
      rw [List.zipIdx_cons, List.foldlM_cons, hbody]
      refine Outcome.bind_ne_error (Outcome.bind_ne_error ?_ fun term => ?_) fun next => ih (k + 1) next hlength'
      · exact bn254G1Mul_ne_error host _ input error
      · exact bn254G1Add_ne_error host vkX term error

theorem verifyGroth16_eq (hlaws : host.Lawful pairing g1 g2) (vk : VerificationKey) (proof : Groth16Proof)
    (publicInputs : List Scalar) :
    verifyGroth16 host vk proof publicInputs =
      if vk.ic.length ≠ publicInputs.length + 1 then some (.error .InvalidVerificationKey)
      else (Points.decode g1 g2 vk proof).map fun points =>
        .ok (decide (points.left pairing * points.right pairing publicInputs = 1)) := by
  split_ifs with hlength
  · exact verifyGroth16_of_length_ne host proof hlength
  rw [not_not] at hlength
  obtain ⟨first, rest, hic⟩ := List.exists_cons_of_length_eq_add_one hlength
  have hrest : rest.length = publicInputs.length := by
    rw [hic, List.length_cons] at hlength
    exact Nat.succ.inj hlength
  have hvkX := element_vkX hlaws hic hrest
  have hnoError := foldlM_accumulate_ne_error host vk.ic publicInputs 0 first (by omega)
  rw [verifyGroth16_of_length host proof hic hlength]
  match hloop : publicInputs.zipIdx.foldlM (accumulate host vk.ic) first with
  | none =>
      -- the loop meets every point of the key, so that one of them is invalid
      have hic' : (vk.ic.mapM fun point => g1 point.bytes) = none := by
        rw [hloop] at hvkX
        exact Option.map_eq_none_iff.mp hvkX.symm
      have hdecode : Points.decode g1 g2 vk proof = none := by simp [Points.decode, hic']
      rw [hdecode]
      rfl
  | some (.error error) => exact absurd hloop (hnoError error)
  | some (.ok vkX) =>
      have hV : g1 vkX.bytes = _ := (congrArg (element g1) hloop).symm.trans hvkX
      have hcheck := hlaws.pairingCheck [proof.a.bytes, vk.alpha.bytes, vkX.bytes, proof.c.bytes]
        [proof.b.bytes, vk.beta.bytes, vk.gamma.bytes, vk.delta.bytes] rfl (List.cons_ne_nil _ _)
      have hanswer : bn254PairingCheck host [proof.a, vk.alpha, vkX, proof.c]
          [proof.b, vk.beta, vk.gamma, vk.delta] = _ :=
        (bn254PairingCheck_of_length host rfl (List.cons_ne_nil _ _)).trans
          (congrArg (Option.map Except.ok) hcheck)
      have hbind : (some (.ok vkX) >>= fun vkX => bn254PairingCheck host [proof.a, vk.alpha, vkX, proof.c]
          [proof.b, vk.beta, vk.gamma, vk.delta] : Outcome Bool) = _ := hanswer
      refine hbind.trans ?_
      cases hic' : vk.ic.mapM fun point => g1 point.bytes with
      | none =>
          rw [hic', Option.map_none] at hV
          cases g1 proof.a.bytes <;> cases g1 vk.alpha.bytes <;> simp [Points.decode, hic', hV]
      | some ic =>
      rw [hic', Option.map_some] at hV
      simp only [List.mapM_cons, List.mapM_nil, hV, Points.decode, hic']
      rcases g1 proof.a.bytes with _ | A
      · simp
      rcases g2 proof.b.bytes with _ | B
      · simp
      rcases g1 proof.c.bytes with _ | C
      · simp
      rcases g1 vk.alpha.bytes with _ | α
      · simp
      rcases g2 vk.beta.bytes with _ | β
      · simp
      rcases g2 vk.gamma.bytes with _ | γ
      · simp
      rcases g2 vk.delta.bytes with _ | δ
      · simp
      · simp [Points.left, Points.right, Points.vkX, mul_assoc]

omit [DecidableEq G] in
theorem vkX_congr (pairing : Pairing G₁ G₂ G) (points : Points G₁ G₂) {inputs inputs' : List Scalar}
    (hcongr : List.Forall₂ (fun input input' => input.value ≡ input'.value [MOD Nat.card G]) inputs inputs') :
    points.vkX inputs = points.vkX inputs' := by
  have hterms : ∀ Ps : List G₁, List.zipWith (fun x P => Scalar.value x • P) inputs Ps =
      List.zipWith (fun x P => Scalar.value x • P) inputs' Ps := by
    induction hcongr with
    | nil => exact fun _ => rfl
    | cons hinput _ ih =>
        intro Ps
        cases Ps with
        | nil => rfl
        | cons P Ps => rw [List.zipWith_cons_cons, List.zipWith_cons_cons, pairing.nsmul_congr P hinput, ih]
  rw [Points.vkX, Points.vkX, hterms]

-- What a circuit answers: an error to the wrong number of inputs, a trap to bytes that are no point, and else
-- whether the four pairings multiply to the unit. Inputs that agree modulo the order are never told apart.
theorem CustomCircuit.verify_answer (hlaws : host.Lawful pairing g1 g2) (vk : VerificationKey)
    (proof : Groth16Proof) (calls : List BuilderCall) :
    (buildCircuit vk calls).verify host proof =
      (if vk.ic.length ≠ calls.length + 1 then some (.error .InvalidVerificationKey)
      else (Points.decode g1 g2 vk proof).map fun points =>
        .ok (decide (points.left pairing * points.right pairing (calls.map BuilderCall.scalar) = 1))) ∧
    ∀ calls' : List BuilderCall,
      List.Forall₂ (BuilderCall.Congruent (Nat.card G)) calls calls' →
        (buildCircuit vk calls').verify host proof = (buildCircuit vk calls).verify host proof := by
  refine ⟨?_, fun calls' hcongr => ?_⟩
  · rw [verify_buildCircuit, verifyGroth16_eq hlaws, List.length_map]
  · have hvkX := fun points => vkX_congr pairing points
      (List.forall₂_map_left_iff.mpr (List.forall₂_map_right_iff.mpr hcongr))
    simp only [verify_buildCircuit, verifyGroth16_eq hlaws, List.length_map, hcongr.length_eq, Points.right, hvkX]
    split_ifs <;> rfl

-- One public input, which is the factor of a generator.
def inputKey : VerificationKey := { sampleKey 0 0 with ic := [⟨encodeG1 0⟩, ⟨encodeG1 1⟩] }

theorem decode_inputKey :
    Points.decode decodeG1 decodeG2 inputKey (sampleProof 0 0) = some ⟨0, 0, 0, 0, 0, 1, 1, [0, 1]⟩ := by
  simp [Points.decode, inputKey, sampleKey, sampleProof, decodeG1_encodeG1, decodeG2_encodeG2]

theorem zero_answered :
    (buildCircuit inputKey [.addU32 0]).verify sampleHost (sampleProof 0 0) =
      (if inputKey.ic.length ≠ [BuilderCall.addU32 0].length + 1 then some (.error .InvalidVerificationKey)
      else (Points.decode decodeG1 decodeG2 inputKey (sampleProof 0 0)).map fun points =>
        .ok (decide (points.left samplePairing *
          points.right samplePairing ([BuilderCall.addU32 0].map BuilderCall.scalar) = 1))) ∧
    ∀ calls' : List BuilderCall,
      List.Forall₂ (BuilderCall.Congruent (Nat.card (Multiplicative (ZMod 3)))) [BuilderCall.addU32 0] calls' →
        (buildCircuit inputKey calls').verify sampleHost (sampleProof 0 0) =
          (buildCircuit inputKey [.addU32 0]).verify sampleHost (sampleProof 0 0) :=
  CustomCircuit.verify_answer sampleHost_lawful inputKey (sampleProof 0 0) [.addU32 0]

-- After a proof was accepted, the answer to every other list of inputs is known: it is right to the number of
-- them, and accepts the proof again exactly if both combinations of the key pair alike with gamma.
theorem CustomCircuit.verify_reused (hlaws : host.Lawful pairing g1 g2) (vk : VerificationKey)
    (proof : Groth16Proof) (calls : List BuilderCall)
    (haccepted : (buildCircuit vk calls).verify host proof = some (.ok true)) :
    ∃ points, Points.decode g1 g2 vk proof = some points ∧ ∀ calls' : List BuilderCall,
      (buildCircuit vk calls').verify host proof =
        if calls'.length ≠ calls.length then some (.error .InvalidVerificationKey)
        else some (.ok (decide (pairing.e (points.vkX (calls'.map BuilderCall.scalar)) points.gamma =
          pairing.e (points.vkX (calls.map BuilderCall.scalar)) points.gamma))) := by
  have hlength : vk.ic.length = calls.length + 1 := by
    by_contra hne
    rw [verify_buildCircuit, verifyGroth16_of_length_ne host proof (by rwa [List.length_map])] at haccepted
    cases haccepted
  rw [verify_buildCircuit, verifyGroth16_eq_true_iff hlaws vk proof _ (by rwa [List.length_map])] at haccepted
  obtain ⟨points, hdecode, hone⟩ := haccepted
  refine ⟨points, hdecode, fun calls' => ?_⟩
  have hequation : points.left pairing * points.right pairing (calls'.map BuilderCall.scalar) = 1 ↔
      pairing.e (points.vkX (calls'.map BuilderCall.scalar)) points.gamma =
        pairing.e (points.vkX (calls.map BuilderCall.scalar)) points.gamma := by
    rw [← hone, mul_right_inj, Points.right, Points.right, mul_left_inj, mul_right_inj]
  have hsame : vk.ic.length ≠ calls'.length + 1 ↔ calls'.length ≠ calls.length := by omega
  simp only [verify_buildCircuit, verifyGroth16_eq hlaws, List.length_map, hsame, hdecode, Option.map_some,
    decide_eq_decide.mpr hequation]

theorem zero_reused :
    ∃ points, Points.decode decodeG1 decodeG2 inputKey (sampleProof 0 0) = some points ∧
      ∀ calls' : List BuilderCall, (buildCircuit inputKey calls').verify sampleHost (sampleProof 0 0) =
        if calls'.length ≠ [BuilderCall.addU32 0].length then some (.error .InvalidVerificationKey)
        else some (.ok (decide
          (samplePairing.e (points.vkX (calls'.map BuilderCall.scalar)) points.gamma =
            samplePairing.e (points.vkX ([BuilderCall.addU32 0].map BuilderCall.scalar)) points.gamma))) := by
  apply CustomCircuit.verify_reused sampleHost_lawful
  rw [verify_buildCircuit, verifyGroth16_eq_true_iff sampleHost_lawful inputKey _ _ rfl]
  exact ⟨_, decode_inputKey, by decide⟩

end Reuse

end Cougr.Zk
