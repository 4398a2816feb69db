import Cougr.Zk.Merkle.Soundness

namespace Cougr.Zk

variable {sha256 : Bytes → BytesN 32}

section Agreement

-- What the conversion keeps: the fields as they are, and each direction where the verifier looks for it.
structure Packs (proof : MerkleProof) (onChain : OnChainMerkleProof) : Prop where
  siblings : onChain.siblings = proof.siblings
  leaf : onChain.leaf = proof.leaf
  leafIndex : onChain.leafIndex = proof.leafIndex
  depth : onChain.depth = proof.siblings.length
  directions : ∀ i < proof.siblings.length, ∃ shifted, checkedShr onChain.pathBits i = some shifted ∧
    proof.pathIndices[i]? = some (decide (shifted &&& 1 = 1))

-- The bits below `i` are the directions so far.
def PackedTo (pathIndices : List Bool) (i : Nat) (pathBits : BitVec 32) : Prop :=
  ∀ k, pathBits.getLsbD k = (decide (k < i) && pathIndices.getD k false)

theorem getLsbD_one_shiftLeft {i : Nat} (hi : i < 32) (k : Nat) :
    ((1 : BitVec 32) <<< i).getLsbD k = decide (k = i) := by
  change (1#32 <<< i).getLsbD k = _
  rw [← BitVec.twoPow_eq, BitVec.getLsbD_twoPow]
  simp [hi, eq_comm]

theorem packedTo_succ {pathIndices : List Bool} {i : Nat} {pathBits : BitVec 32} (hi : i < pathIndices.length)
    (hwidth : i < 32) (hpacked : PackedTo pathIndices i pathBits) :
    PackedTo pathIndices (i + 1) (if pathIndices[i] then pathBits ||| (1 : BitVec 32) <<< i else pathBits) := by
  have hget : pathIndices.getD i false = pathIndices[i] := by simp [hi]
  intro k
  have hbit : (if pathIndices[i] then pathBits ||| (1 : BitVec 32) <<< i else pathBits).getLsbD k =
      (pathBits.getLsbD k || decide (k = i) && pathIndices[i]) := by
    split_ifs with hright
    · rw [BitVec.getLsbD_or, getLsbD_one_shiftLeft hwidth, hright, Bool.and_true]
    · rw [Bool.not_eq_true] at hright
      rw [hright, Bool.and_false, Bool.or_false]
  rw [hbit, hpacked, ← hget]
  rcases Nat.lt_trichotomy k i with hlt | rfl | hgt
  · have hne := Nat.ne_of_lt hlt
    simp [hlt, Nat.lt_succ_of_lt hlt, hne]
  · simp
  · have hne := Nat.ne_of_gt hgt
    simp [hne, Nat.not_lt.mpr (Nat.le_of_lt hgt), Nat.not_lt.mpr hgt]

theorem packSibling_eq {pathIndices : List Bool} {i : Nat} (hi : i < pathIndices.length) (hwidth : i < 32)
    (siblings : List (BytesN 32)) (pathBits : BitVec 32) (sibling : BytesN 32) :
    packSibling pathIndices (siblings, pathBits) (sibling, i) =
      some (siblings ++ [sibling], if pathIndices[i] then pathBits ||| (1 : BitVec 32) <<< i else pathBits) := by
  simp only [packSibling, List.getElem?_eq_getElem hi, checkedShl, if_pos hwidth, Option.bind_eq_bind,
    Option.bind_some, Option.pure_def]
  split_ifs <;> rfl

theorem foldlM_packSibling {pathIndices : List Bool} (rest : List (BytesN 32)) (i : Nat)
    (siblings : List (BytesN 32)) {pathBits : BitVec 32} (hlength : i + rest.length ≤ pathIndices.length)
    (hwidth : i + rest.length ≤ 32) (hpacked : PackedTo pathIndices i pathBits) :
    ∃ packed, PackedTo pathIndices (i + rest.length) packed ∧
      (rest.zipIdx i).foldlM (packSibling pathIndices) (siblings, pathBits) =
      some (siblings ++ rest, packed) := by
  induction rest generalizing i siblings pathBits with
  | nil => exact ⟨pathBits, hpacked, by simp⟩
  | cons sibling rest ih =>
      rw [List.length_cons] at hlength hwidth
      have hnext := packedTo_succ (by omega : i < pathIndices.length) (by omega) hpacked
      obtain ⟨packed, hall, hrest⟩ := ih (i + 1) (siblings ++ [sibling]) (by omega) (by omega) hnext
      refine ⟨packed, ?_, ?_⟩
      · rwa [List.length_cons, ← Nat.add_assoc, Nat.add_right_comm]
      · rw [List.zipIdx_cons, List.foldlM_cons, packSibling_eq (by omega) (by omega)]
        rw [Option.bind_eq_bind, Option.bind_some, hrest, List.append_assoc, List.singleton_append]

theorem toOnChainProof_eq {proof : MerkleProof} (hlength : proof.pathIndices.length = proof.siblings.length)
    (hwidth : proof.siblings.length ≤ 32) :
    ∃ pathBits, PackedTo proof.pathIndices proof.siblings.length pathBits ∧
      toOnChainProof proof =
      some ⟨proof.siblings, pathBits, proof.leaf, proof.leafIndex, proof.siblings.length⟩ := by
  have hzero : PackedTo proof.pathIndices 0 0 := by
    intro k
    simp
  obtain ⟨pathBits, hpacked, hfold⟩ := foldlM_packSibling proof.siblings 0 [] (by omega) (by omega) hzero
  have hsmall : proof.siblings.length % 2 ^ 32 = proof.siblings.length := Nat.mod_eq_of_lt (by omega)
  rw [Nat.zero_add] at hpacked
  refine ⟨pathBits, hpacked, ?_⟩
  rw [toOnChainProof, hfold, List.nil_append, hsmall]
  rfl

-- The packed directions describe the walk of the proof itself.
theorem walk_of_packedTo {proof : MerkleProof} (hlength : proof.pathIndices.length = proof.siblings.length)
    {onChain : OnChainMerkleProof} (hsiblings : onChain.siblings = proof.siblings)
    (hpacked : PackedTo proof.pathIndices proof.siblings.length onChain.pathBits) :
    onChain.walk = proof.walk := by
  apply List.ext_getElem
  · simp [MerkleProof.walk, hsiblings, hlength]
  · intro k hk _
    have hk' : k < proof.siblings.length := by simpa [hsiblings] using hk
    have hbit := hpacked k
    simp [OnChainMerkleProof.walk, MerkleProof.walk, hsiblings, hbit, hk', hlength]

-- Honest or not, a proof of at most as many levels as the word has bits gets the same answer on chain.
theorem verifiers_agree (sha256 : Bytes → BytesN 32) (proof : MerkleProof) (root : BytesN 32)
    (hlength : proof.pathIndices.length = proof.siblings.length) (hwidth : proof.siblings.length ≤ 32) :
    (∃ onChain answer, toOnChainProof proof = some onChain ∧ Packs proof onChain ∧
      verifyProof sha256 proof root = some answer ∧
      verifyInclusion sha256 onChain root = some (.ok answer)) ∧
    ∀ left right, rawPairInput left right = pairInput left right ∧ (pairInput left right).length = 65 := by
  obtain ⟨pathBits, hpacked, honChain⟩ := toOnChainProof_eq hlength hwidth
  have hwalk := @walk_of_packedTo proof hlength
    ⟨proof.siblings, pathBits, proof.leaf, proof.leafIndex, proof.siblings.length⟩ rfl hpacked
  refine ⟨⟨_, _, honChain, ⟨rfl, rfl, rfl, rfl, ?_⟩, verifyProof_eq hlength root, ?_⟩, ?_⟩
  · intro i hi
    refine ⟨pathBits >>> i, if_pos (by omega), ?_⟩
    have hbit := hpacked i
    simp only [shift_and_one_eq_one_iff, hbit, hi, decide_true, Bool.true_and]
    simp [hlength, hi]
  · rw [verifyInclusion_of_le sha256 rfl hwidth, hwalk]
  · intro left right
    exact ⟨rawPairInput_eq left right, by simp [pairInput]⟩

-- The second leaf of the sample tree, whose only direction is to the right.
theorem second_leaf_verifiers_agree :
    (∃ onChain answer, toOnChainProof ⟨[sampleHashes.getD 0 zeroHash], [true], sampleHashes.getD 1 zeroHash, 1⟩ =
        some onChain ∧
      Packs ⟨[sampleHashes.getD 0 zeroHash], [true], sampleHashes.getD 1 zeroHash, 1⟩ onChain ∧
      verifyProof sampleSha256 ⟨[sampleHashes.getD 0 zeroHash], [true], sampleHashes.getD 1 zeroHash, 1⟩
        sampleRoot = some answer ∧
      verifyInclusion sampleSha256 onChain sampleRoot = some (.ok answer)) ∧
    ∀ left right, rawPairInput left right = pairInput left right ∧ (pairInput left right).length = 65 :=
  verifiers_agree sampleSha256 ⟨[sampleHashes.getD 0 zeroHash], [true], sampleHashes.getD 1 zeroHash, 1⟩
    sampleRoot rfl (by decide)

end Agreement

section Answers

-- The call returns, with an answer or with the error for a proof of the wrong length.
def Answers (outcome : Outcome Bool) : Prop :=
  outcome = some (.ok true) ∨ outcome = some (.ok false) ∨ outcome = some (.error .InvalidProofLength)

-- The depth is compared with the number of siblings only, and the bits run out at 32.
theorem verifyInclusion_answers_iff (sha256 : Bytes → BytesN 32) (proof : OnChainMerkleProof)
    (expectedRoot : BytesN 32) : Answers (verifyInclusion sha256 proof expectedRoot) ↔
      proof.siblings.length ≠ proof.depth ∨ proof.depth ≤ 32 := by
  by_cases hlength : proof.siblings.length = proof.depth
  · rw [or_iff_right (not_not.mpr hlength)]
    rcases Nat.lt_or_ge 32 proof.depth with hlong | hshort
    · rw [verifyInclusion_of_lt sha256 hlength hlong]
      refine iff_of_false ?_ (Nat.not_le.mpr hlong)
      rintro (hanswer | hanswer | hanswer) <;> cases hanswer
    · rw [verifyInclusion_of_le sha256 hlength hshort]
      refine iff_of_true ?_ hshort
      cases decide (HashTree.climb (hashPair sha256) proof.walk proof.leaf = expectedRoot)
      · exact Or.inr (Or.inl rfl)
      · exact Or.inl rfl
  · rw [verifyInclusion_of_length_ne sha256 hlength]
    exact iff_of_true (Or.inr (Or.inr rfl)) (Or.inl hlength)

-- One level more than there are bits.
def deepProof : OnChainMerkleProof where
  siblings := List.replicate 33 zeroHash
  pathBits := 0
  leaf := zeroHash
  leafIndex := 0
  depth := 33

theorem deep_proof_traps : ¬Answers (verifyInclusion sampleSha256 deepProof zeroHash) := by
  rw [verifyInclusion_of_lt sampleSha256 (List.length_replicate ..) (by decide)]
  rintro (hanswer | hanswer | hanswer) <;> cases hanswer

end Answers

section Position

variable {leaves : List (BytesN 32)}

theorem position_mapIdx (siblings : List (BytesN 32)) (pathBits : BitVec 32) (i : Nat) :
    HashTree.position (siblings.mapIdx fun k sibling => (pathBits.getLsbD (k + i), sibling)) 0 =
      pathBits.toNat / 2 ^ i % 2 ^ siblings.length := by
  induction siblings generalizing i with
  | nil => simp [HashTree.position, Nat.mod_one]
  | cons sibling rest ih =>
      have hshift : (fun (k : Nat) (sibling : BytesN 32) => (pathBits.getLsbD (k + 1 + i), sibling)) =
          fun k sibling => (pathBits.getLsbD (k + (i + 1)), sibling) := by
        funext k sibling
        rw [Nat.add_right_comm, Nat.add_assoc]
      have hbit : (pathBits.getLsbD i).toNat = pathBits.toNat / 2 ^ i % 2 := by
        rw [← BitVec.testBit_toNat, Nat.testBit_eq_decide_div_mod_eq]
        rcases Nat.mod_two_eq_zero_or_one (pathBits.toNat / 2 ^ i) with hzero | hone
        · simp [hzero]
        · simp [hone]
      have hhalf : pathBits.toNat / 2 ^ (i + 1) = pathBits.toNat / 2 ^ i / 2 := by
        rw [Nat.div_div_eq_div_mul, ← pow_succ]
      rw [List.mapIdx_cons, HashTree.position, hshift, ih, Nat.zero_add, hbit, hhalf, List.length_cons, pow_succ',
        Nat.mod_mul, Nat.add_comm]

theorem position_walk (proof : OnChainMerkleProof) :
    HashTree.position proof.walk 0 = proof.pathBits.toNat % 2 ^ proof.siblings.length := by
  have hposition := position_mapIdx proof.siblings proof.pathBits 0
  rwa [pow_zero, Nat.div_one] at hposition

-- What an accepted proof of full depth is bound to is the position that its direction bits spell; the
-- index that it carries besides is not looked at.
theorem verifyInclusion_binds_position {tree : MerkleTree} {root : BytesN 32} {proof : OnChainMerkleProof}
    (hpos : 1 ≤ leaves.length) (hmax : leaves.length ≤ 2 ^ 20)
    (htree : MerkleTree.fromLeaves sha256 leaves = some (.ok tree)) (hroot : tree.root = some root)
    (hdepth : proof.depth = tree.depth)
    (hfree : CollisionFree sha256 (treeInputs leaves tree ++ walkInputs sha256 proof.walk proof.leaf))
    (haccepted : verifyInclusion sha256 proof root = some (.ok true)) :
    tree.nodeAt 0 (proof.pathBits.toNat % 2 ^ tree.depth) = some proof.leaf ∧
    ∀ leafIndex, verifyInclusion sha256 { proof with leafIndex } root = some (.ok true) := by
  have heq := eq_fullTree hpos hmax htree
  subst heq
  rw [root_fullTree] at hroot
  obtain rfl := Option.some.inj hroot
  obtain ⟨hlength, hwidth, hclimb⟩ := (verifyInclusion_eq_true_iff sha256 proof _).mp haccepted
  have hwalk : proof.walk.length = (fullTree (sha256Hash sha256) leaves).depth := by
    rw [proof.length_walk, hlength, hdepth]
  have hruns := runsAlong_of_climb hfree (fun _ => List.mem_append_left _)
    (mem_hashedPairs_of_walk fun _ => List.mem_append_right _) (Nat.le_of_eq hwalk) hclimb
  have hstart := hruns.start
  rw [hwalk, Nat.sub_self, position_walk, hlength, hdepth] at hstart
  refine ⟨hstart, fun leafIndex => ?_⟩
  exact (verifyInclusion_eq_true_iff sha256 { proof with leafIndex } _).mpr ⟨hlength, hwidth, hclimb⟩

-- The proof of the first leaf of the sample tree, said to be about the second.
def misplacedProof : OnChainMerkleProof where
  siblings := [sampleHashes.getD 1 zeroHash]
  pathBits := 0
  leaf := sampleHashes.getD 0 zeroHash
  leafIndex := 1
  depth := 1

theorem misplaced_proof_at_its_bits :
    sampleTree.nodeAt 0 (misplacedProof.pathBits.toNat % 2 ^ sampleTree.depth) = some misplacedProof.leaf ∧
    ∀ leafIndex, verifyInclusion sampleSha256 { misplacedProof with leafIndex } sampleRoot = some (.ok true) :=
  @verifyInclusion_binds_position sampleSha256 sampleLeaves sampleTree sampleRoot misplacedProof (by decide)
    (by decide) rfl rfl rfl (by decide) rfl

theorem misplaced_proof_accepted :
    MerkleTree.fromLeaves sampleSha256 sampleLeaves = some (.ok sampleTree) ∧
      sampleTree.root = some sampleRoot ∧ misplacedProof.depth = sampleTree.depth ∧
      CollisionFree sampleSha256
        (treeInputs sampleLeaves sampleTree ++ walkInputs sampleSha256 misplacedProof.walk misplacedProof.leaf) ∧
      verifyInclusion sampleSha256 misplacedProof sampleRoot = some (.ok true) ∧
      sampleTree.nodeAt 0 misplacedProof.leafIndex ≠ some misplacedProof.leaf :=
  ⟨rfl, rfl, rfl, by decide, rfl, by decide⟩

end Position

end Cougr.Zk
