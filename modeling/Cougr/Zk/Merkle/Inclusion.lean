import Cougr.Zk.Merkle.Soundness

namespace Cougr.Zk

variable {sha256 : Bytes → BytesN 32} {leaves : List (BytesN 32)}

-- A leaf hash of the list, or the zero hash where the tree pads the list.
def Genuine (sha256 : Bytes → BytesN 32) (leaves : List (BytesN 32)) (tree : MerkleTree)
    (leaf : BytesN 32) : Prop :=
  (∃ data ∈ leaves, leaf = hashLeaf sha256 data) ∨ leaves.length < 2 ^ tree.depth ∧ leaf = zeroHash

-- A proof that is shorter than the tree is deep, taken from the tree itself: it starts at an inner node.
def StartsInside (tree : MerkleTree) (proof : OnChainMerkleProof) : Prop :=
  proof.depth < tree.depth ∧ RunsAlong tree proof.walk proof.leaf

-- A proof that is longer: its lower part climbs to a zero hash, and its upper part is the tree's from there.
def StartsBelow (sha256 : Bytes → BytesN 32) (tree : MerkleTree) (proof : OnChainMerkleProof) : Prop :=
  tree.depth < proof.depth ∧
  HashTree.climb (hashPair sha256) (proof.walk.take (proof.depth - tree.depth)) proof.leaf = zeroHash ∧
  RunsAlong tree (proof.walk.drop (proof.depth - tree.depth)) zeroHash

section Inclusion

theorem genuine_bottomNode {i : Nat} (hi : i < 2 ^ (fullTree (sha256Hash sha256) leaves).depth) :
    Genuine sha256 leaves (fullTree (sha256Hash sha256) leaves) (bottomNode (sha256Hash sha256) leaves i) := by
  unfold bottomNode
  cases hleaf : leaves[i]? with
  | none =>
      have hlt := Nat.lt_of_le_of_lt (List.getElem?_eq_none_iff.mp hleaf) hi
      exact Or.inr ⟨hlt, rfl⟩
  | some data => exact Or.inl ⟨data, List.mem_of_getElem? hleaf, rfl⟩

theorem genuine_of_runsAlong {walk : List (Bool × BytesN 32)} {start : BytesN 32}
    (hlength : walk.length = (fullTree (sha256Hash sha256) leaves).depth)
    (hruns : RunsAlong (fullTree (sha256Hash sha256) leaves) walk start) :
    Genuine sha256 leaves (fullTree (sha256Hash sha256) leaves) start := by
  have hlt := HashTree.position_lt walk (Nat.two_pow_pos 0)
  have hnode := ((runsAlong_fullTree_iff (Nat.le_of_eq hlength)).mp hruns).1
  rw [hlength, Nat.zero_add] at hlt
  rw [hlength, Nat.sub_self, treeNode, HashTree.node] at hnode
  rw [hnode]
  exact genuine_bottomNode hlt

-- What a longer proof climbs to is an inner hash, and the only such hash that can lie in the bottom
-- layer is zero.
theorem eq_zeroHash_of_bottomNode {inputs : List Bytes} (hfree : CollisionFree sha256 inputs)
    (htree : ∀ input ∈ treeInputs leaves (fullTree (sha256Hash sha256) leaves), input ∈ inputs)
    {left right : BytesN 32} (hpair : pairInput left right ∈ inputs) {i : Nat}
    (hnode : hashPair sha256 left right = bottomNode (sha256Hash sha256) leaves i) :
    hashPair sha256 left right = zeroHash := by
  unfold bottomNode at hnode
  cases hleaf : leaves[i]? with
  | none =>
      rw [hleaf] at hnode
      exact hnode
  | some data =>
      rw [hleaf] at hnode
      have hmem := leafInput_mem_of_tree (List.mem_of_getElem? hleaf) htree
      exact absurd hnode.symm (hashLeaf_ne_hashPair hfree hmem hpair)

-- A proof that is accepted runs along the tree where they overlap.
theorem genuine_or_starts_of_accepted {inputs : List Bytes} {proof : OnChainMerkleProof}
    (hfree : CollisionFree sha256 inputs)
    (htree : ∀ input ∈ treeInputs leaves (fullTree (sha256Hash sha256) leaves), input ∈ inputs)
    (hpairs : ∀ pair ∈ HashTree.inputs (hashPair sha256) proof.walk proof.leaf, pair ∈ hashedPairs inputs)
    (hlength : proof.siblings.length = proof.depth)
    (hclimb : HashTree.climb (hashPair sha256) proof.walk proof.leaf =
      treeNode (sha256Hash sha256) leaves (fullTree (sha256Hash sha256) leaves).depth 0) :
    Genuine sha256 leaves (fullTree (sha256Hash sha256) leaves) proof.leaf ∨
      StartsInside (fullTree (sha256Hash sha256) leaves) proof ∨
      StartsBelow sha256 (fullTree (sha256Hash sha256) leaves) proof := by
  have hwalk : proof.walk.length = proof.depth := by rw [proof.length_walk, hlength]
  rcases Nat.lt_or_ge (fullTree (sha256Hash sha256) leaves).depth proof.depth with hlong | hshort
  · -- the part above the bottom layer is bound to the tree, the part below ends in an inner hash
    have hsplit := List.take_append_drop (proof.depth - (fullTree (sha256Hash sha256) leaves).depth) proof.walk
    have hupper : (proof.walk.drop (proof.depth - (fullTree (sha256Hash sha256) leaves).depth)).length =
        (fullTree (sha256Hash sha256) leaves).depth := by
      rw [List.length_drop, hwalk]
      omega
    have hlower : proof.walk.take (proof.depth - (fullTree (sha256Hash sha256) leaves).depth) ≠ [] := by
      rw [← List.length_pos_iff, List.length_take, hwalk]
      omega
    rw [← hsplit, HashTree.climb_append] at hclimb
    rw [← hsplit, HashTree.inputs_append] at hpairs
    have hruns := runsAlong_of_climb hfree htree
      (fun pair hpair => hpairs pair (List.mem_append_right _ hpair)) (Nat.le_of_eq hupper) hclimb
    obtain ⟨pair, hpair, hlast⟩ := HashTree.exists_input_of_ne_nil (hashPair sha256) hlower proof.leaf
    have hnode := ((runsAlong_fullTree_iff (Nat.le_of_eq hupper)).mp hruns).1
    rw [hlast, hupper, Nat.sub_self] at hnode
    have hzero := eq_zeroHash_of_bottomNode hfree htree (hpairs pair (List.mem_append_left _ hpair)) hnode
    have hstart := hlast.trans hzero
    rw [hstart] at hruns
    exact Or.inr (Or.inr ⟨hlong, hstart, hruns⟩)
  · have hruns := runsAlong_of_climb hfree htree hpairs (hwalk.trans_le hshort) hclimb
    rcases Nat.lt_or_eq_of_le hshort with hlt | heq
    · exact Or.inr (Or.inl ⟨hlt, hruns⟩)
    · exact Or.inl (genuine_of_runsAlong (hwalk.trans heq) hruns)

theorem climb_of_starts {proof : OnChainMerkleProof} (hlength : proof.siblings.length = proof.depth)
    (hstarts : StartsInside (fullTree (sha256Hash sha256) leaves) proof ∨
      StartsBelow sha256 (fullTree (sha256Hash sha256) leaves) proof) :
    HashTree.climb (hashPair sha256) proof.walk proof.leaf =
      treeNode (sha256Hash sha256) leaves (fullTree (sha256Hash sha256) leaves).depth 0 := by
  have hwalk : proof.walk.length = proof.depth := by rw [proof.length_walk, hlength]
  rcases hstarts with ⟨hlt, hruns⟩ | ⟨hlt, hlower, hruns⟩
  · exact climb_of_runsAlong (hwalk.trans_le (Nat.le_of_lt hlt)) hruns
  · have hupper : (proof.walk.drop (proof.depth - (fullTree (sha256Hash sha256) leaves).depth)).length ≤
        (fullTree (sha256Hash sha256) leaves).depth := by
      rw [List.length_drop, hwalk]
      omega
    rw [← List.take_append_drop (proof.depth - (fullTree (sha256Hash sha256) leaves).depth) proof.walk,
      HashTree.climb_append, hlower]
    exact climb_of_runsAlong hupper hruns

-- Accepted proofs show leaves only, exactly when they do not start inside the tree or below its padding.
theorem verifyInclusion_genuine_iff {tree : MerkleTree} {root : BytesN 32} {proof : OnChainMerkleProof}
    (hpos : 1 ≤ leaves.length) (hmax : leaves.length ≤ 2 ^ 20)
    (htree : MerkleTree.fromLeaves sha256 leaves = some (.ok tree)) (hroot : tree.root = some root)
    (hfree : CollisionFree sha256 (treeInputs leaves tree ++ walkInputs sha256 proof.walk proof.leaf)) :
    (verifyInclusion sha256 proof root = some (.ok true) → Genuine sha256 leaves tree proof.leaf) ↔
      ¬(proof.siblings.length = proof.depth ∧ proof.depth ≤ 32 ∧ ¬Genuine sha256 leaves tree proof.leaf ∧
        (StartsInside tree proof ∨ StartsBelow sha256 tree proof)) := by
  have heq := eq_fullTree hpos hmax htree
  subst heq
  rw [root_fullTree] at hroot
  obtain rfl := Option.some.inj hroot
  rw [verifyInclusion_eq_true_iff]
  constructor
  · intro hgenuine hforged
    obtain ⟨hlength, hwidth, hnot, hstarts⟩ := hforged
    exact hnot (hgenuine ⟨hlength, hwidth, climb_of_starts hlength hstarts⟩)
  · intro hnot haccepted
    obtain ⟨hlength, hwidth, hclimb⟩ := haccepted
    by_contra hforged
    have hstarts := genuine_or_starts_of_accepted hfree (fun _ => List.mem_append_left _)
      (mem_hashedPairs_of_walk fun _ => List.mem_append_right _) hlength hclimb
    exact hnot ⟨hlength, hwidth, hforged, hstarts.resolve_left hforged⟩

-- The root of the sample tree, shown as a leaf at depth zero.
def rootAsLeaf : OnChainMerkleProof where
  siblings := []
  pathBits := 0
  leaf := sampleRoot
  leafIndex := 0
  depth := 0

theorem rootAsLeaf_accepted :
    MerkleTree.fromLeaves sampleSha256 sampleLeaves = some (.ok sampleTree) ∧
      sampleTree.root = some sampleRoot ∧
      CollisionFree sampleSha256
        (treeInputs sampleLeaves sampleTree ++ walkInputs sampleSha256 rootAsLeaf.walk rootAsLeaf.leaf) ∧
      verifyInclusion sampleSha256 rootAsLeaf sampleRoot = some (.ok true) ∧
      ¬Genuine sampleSha256 sampleLeaves sampleTree rootAsLeaf.leaf := by
  refine ⟨rfl, rfl, by decide, rfl, ?_⟩
  unfold Genuine
  decide

-- The first leaf of the same tree, with its own proof.
def firstLeafProof : OnChainMerkleProof where
  siblings := [sampleHashes.getD 1 zeroHash]
  pathBits := 0
  leaf := sampleHashes.getD 0 zeroHash
  leafIndex := 0
  depth := 1

theorem firstLeaf_genuine : Genuine sampleSha256 sampleLeaves sampleTree firstLeafProof.leaf := by
  refine (@verifyInclusion_genuine_iff sampleSha256 sampleLeaves sampleTree sampleRoot firstLeafProof
    (by decide) (by decide) rfl rfl (by decide)).mpr ?_ rfl
  rintro ⟨_, _, _, hinside | hbelow⟩
  · exact absurd hinside.1 (by decide)
  · exact absurd hbelow.1 (by decide)

end Inclusion

end Cougr.Zk
