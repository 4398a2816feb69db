import Cougr.Zk.Merkle.Tree
import Cougr.Library.HashTree

namespace Cougr.Zk

structure OnChainMerkleProof where
  siblings : List (BytesN 32)
  pathBits : BitVec 32
  leaf : BytesN 32
  leafIndex : Nat
  depth : Nat

-- Overflow is checked: a shift by the width of the number or more traps.
def checkedShr (bits : BitVec 32) (amount : Nat) : Option (BitVec 32) :=
  if amount < 32 then some (bits >>> amount) else none

def checkedShl (bits : BitVec 32) (amount : Nat) : Option (BitVec 32) :=
  if amount < 32 then some (bits <<< amount) else none

-- This file has a pair hash of its own, beside the one of the trees.
def rawPairInput (left right : BytesN 32) : Bytes :=
  let input : Bytes := List.replicate 65 0
  let input := input.set 0 0x01
  let input := copyFromSlice input 1 left.toList
  copyFromSlice input 33 right.toList

def hashPairRaw (sha256 : Bytes → BytesN 32) (left right : BytesN 32) : BytesN 32 :=
  sha256 (rawPairInput left right)

-- One turn of the loop of `to_on_chain_proof`.
def packSibling (pathIndices : List Bool) (packed : List (BytesN 32) × BitVec 32) (entry : BytesN 32 × Nat) :
    Option (List (BytesN 32) × BitVec 32) := do
  let (siblings, pathBits) := packed
  let (sibling, i) := entry
  let right ← pathIndices[i]?
  if right then
    let bit ← checkedShl 1 i
    return (siblings ++ [sibling], pathBits ||| bit)
  else return (siblings ++ [sibling], pathBits)

def toOnChainProof (proof : MerkleProof) : Option OnChainMerkleProof := do
  let (siblings, pathBits) ← proof.siblings.zipIdx.foldlM (packSibling proof.pathIndices) ([], 0)
  return {
    siblings
    pathBits
    leaf := proof.leaf
    leafIndex := proof.leafIndex
    -- `as u32`
    depth := proof.siblings.length % 2 ^ 32 }

section Hash

theorem rawPairInput_eq (left right : BytesN 32) : rawPairInput left right = pairInput left right := by
  simp [rawPairInput, copyFromSlice, pairInput, List.replicate_succ]

@[simp] theorem hashPairRaw_eq (sha256 : Bytes → BytesN 32) : hashPairRaw sha256 = hashPair sha256 := by
  funext left right
  rw [hashPairRaw, rawPairInput_eq, hashPair]

end Hash

variable (sha256 : Bytes → BytesN 32)

-- The loop over the levels, from level `i` on.
def inclusionLoop (proof : OnChainMerkleProof) : (turns i : Nat) → BytesN 32 → Outcome (BytesN 32)
  | 0, _, current => pure current
  | turns + 1, i, current => do
    let sibling ← okOr proof.siblings[i]? .InvalidProofLength
    let shifted ← checkedShr proof.pathBits i
    let isRight := shifted &&& 1 = 1
    inclusionLoop proof turns (i + 1)
      (if isRight then hashPairRaw sha256 sibling current else hashPairRaw sha256 current sibling)

def verifyInclusion (proof : OnChainMerkleProof) (expectedRoot : BytesN 32) : Outcome Bool := do
  if proof.siblings.length ≠ proof.depth then throw .InvalidProofLength
  let current ← inclusionLoop sha256 proof proof.depth 0 proof.leaf
  return current = expectedRoot

section Climb

-- The walk that a proof describes: its siblings with their packed direction bits.
def OnChainMerkleProof.walk (proof : OnChainMerkleProof) : List (Bool × BytesN 32) :=
  proof.siblings.mapIdx fun i sibling => (proof.pathBits.getLsbD i, sibling)

@[simp] theorem OnChainMerkleProof.length_walk (proof : OnChainMerkleProof) :
    proof.walk.length = proof.siblings.length := by
  simp [walk]

theorem shift_and_one_eq_one_iff (bits : BitVec 32) (i : Nat) :
    bits >>> i &&& 1 = 1 ↔ bits.getLsbD i = true := by
  have hvalue : (bits >>> i &&& 1).toNat = bits.toNat / 2 ^ i % 2 := by
    simp [BitVec.toNat_and, BitVec.toNat_ushiftRight, Nat.shiftRight_eq_div_pow]
  have hone : (1 : BitVec 32).toNat = 1 := rfl
  rw [← BitVec.toNat_inj, hvalue, hone, ← BitVec.testBit_toNat, Nat.testBit_eq_decide_div_mod_eq,
    decide_eq_true_iff]

theorem inclusionLoop_eq (proof : OnChainMerkleProof) (turns i : Nat) (current : BytesN 32)
    (hlength : proof.siblings.length = i + turns) (hwidth : i + turns ≤ 32) :
    inclusionLoop sha256 proof turns i current =
      some (.ok (HashTree.climb (hashPair sha256) (proof.walk.drop i) current)) := by
  induction turns generalizing i current with
  | zero =>
      rw [List.drop_eq_nil_of_le (by simp [hlength])]
      rfl
  | succ turns ih =>
      have hi : i < proof.siblings.length := by omega
      have hi' : i < proof.walk.length := by simpa using hi
      have hshift : checkedShr proof.pathBits i = some (proof.pathBits >>> i) := if_pos (by omega)
      have hstep : proof.walk[i] = (proof.pathBits.getLsbD i, proof.siblings[i]) := by
        simp [OnChainMerkleProof.walk]
      rw [List.drop_eq_getElem_cons hi', hstep, HashTree.climb]
      simp only [inclusionLoop, List.getElem?_eq_getElem hi, hshift, Outcome.some_bind,
        shift_and_one_eq_one_iff, hashPairRaw_eq]
      refine Eq.trans (b := _) ?_ (ih (i + 1) _ (by omega) (by omega))
      cases proof.pathBits.getLsbD i <;> rfl

-- A walk of a level or more past the width of the direction bits traps.
theorem inclusionLoop_eq_none (proof : OnChainMerkleProof) (turns i : Nat) (current : BytesN 32)
    (hlength : proof.siblings.length = i + turns) (hi : i ≤ 32) (hwidth : 32 < i + turns) :
    inclusionLoop sha256 proof turns i current = none := by
  induction turns generalizing i current with
  | zero => omega
  | succ turns ih =>
      have hsibling : i < proof.siblings.length := by omega
      simp only [inclusionLoop, List.getElem?_eq_getElem hsibling, checkedShr]
      split_ifs with hlt
      · exact ih (i + 1) _ (by omega) (by omega) (by omega)
      · rfl

-- The three answers of the verifier, and when it has none.

theorem verifyInclusion_of_length_ne {proof : OnChainMerkleProof} (hlength : proof.siblings.length ≠ proof.depth)
    (expectedRoot : BytesN 32) :
    verifyInclusion sha256 proof expectedRoot = some (.error .InvalidProofLength) := by
  rw [verifyInclusion, if_pos hlength]
  rfl

theorem verifyInclusion_of_le {proof : OnChainMerkleProof} (hlength : proof.siblings.length = proof.depth)
    (hwidth : proof.depth ≤ 32) (expectedRoot : BytesN 32) : verifyInclusion sha256 proof expectedRoot =
      some (.ok (decide (HashTree.climb (hashPair sha256) proof.walk proof.leaf = expectedRoot))) := by
  have hloop := inclusionLoop_eq sha256 proof proof.depth 0 proof.leaf (by omega) (by omega)
  rw [verifyInclusion, if_neg (not_not.mpr hlength), hloop]
  rfl

theorem verifyInclusion_of_lt {proof : OnChainMerkleProof} (hlength : proof.siblings.length = proof.depth)
    (hwidth : 32 < proof.depth) (expectedRoot : BytesN 32) :
    verifyInclusion sha256 proof expectedRoot = none := by
  have hloop := inclusionLoop_eq_none sha256 proof proof.depth 0 proof.leaf (by omega) (by omega) (by omega)
  rw [verifyInclusion, if_neg (not_not.mpr hlength), hloop]
  rfl

-- What the verifier accepts: as many siblings as levels, no more than bits, and a walk to the root.
theorem verifyInclusion_eq_true_iff (proof : OnChainMerkleProof) (expectedRoot : BytesN 32) :
    verifyInclusion sha256 proof expectedRoot = some (.ok true) ↔
      proof.siblings.length = proof.depth ∧ proof.depth ≤ 32 ∧
        HashTree.climb (hashPair sha256) proof.walk proof.leaf = expectedRoot := by
  by_cases hlength : proof.siblings.length = proof.depth
  · rcases Nat.lt_or_ge 32 proof.depth with hlong | hshort
    · rw [verifyInclusion_of_lt sha256 hlength hlong]
      exact iff_of_false nofun fun haccepted => Nat.not_le.mpr hlong haccepted.2.1
    · rw [verifyInclusion_of_le sha256 hlength hshort]
      constructor
      · intro haccepted
        have hvalue := Except.ok.inj (Option.some.inj haccepted)
        exact ⟨hlength, hshort, of_decide_eq_true hvalue⟩
      · rintro ⟨_, _, hroot⟩
        rw [decide_eq_true hroot]
  · rw [verifyInclusion_of_length_ne sha256 hlength]
    exact iff_of_false nofun fun haccepted => hlength haccepted.1

end Climb

end Cougr.Zk
