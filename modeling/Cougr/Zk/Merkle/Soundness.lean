import Cougr.Zk.Merkle.Binding

namespace Cougr.Zk

variable {sha256 : Bytes → BytesN 32} {leaves : List (BytesN 32)}

theorem eq_fullTree {tree : MerkleTree} (hpos : 1 ≤ leaves.length) (hmax : leaves.length ≤ 2 ^ 20)
    (htree : MerkleTree.fromLeaves sha256 leaves = some (.ok tree)) :
    tree = fullTree (sha256Hash sha256) leaves := by
  rw [MerkleTree.fromLeaves, fromLeaves_eq _ leaves hpos hmax] at htree
  exact (Except.ok.inj (Option.some.inj htree)).symm

section FullDepth

-- The position that direction bits lead to, the lowest level first.
def leafPosition (pathIndices : List Bool) : Nat :=
  (pathIndices.mapIdx fun k right => right.toNat * 2 ^ k).sum

theorem sum_mapIdx_eq_position (walk : List (Bool × BytesN 32)) (shift : Nat) :
    ((walk.map Prod.fst).mapIdx fun k right => right.toNat * 2 ^ (k + shift)).sum =
      2 ^ shift * HashTree.position walk 0 := by
  induction walk generalizing shift with
  | nil => rfl
  | cons step walk ih =>
      have hshift : (fun (k : Nat) (right : Bool) => right.toNat * 2 ^ (k + 1 + shift)) =
          fun k right => right.toNat * 2 ^ (k + (shift + 1)) := by
        funext k right
        rw [Nat.add_right_comm, Nat.add_assoc]
      rw [List.map_cons, List.mapIdx_cons, List.sum_cons, hshift, ih, HashTree.position, Nat.zero_add, pow_succ]
      ring

theorem leafPosition_eq_position {proof : MerkleProof}
    (hlength : proof.pathIndices.length = proof.siblings.length) :
    leafPosition proof.pathIndices = HashTree.position proof.walk 0 := by
  have hfst : proof.walk.map Prod.fst = proof.pathIndices := List.map_fst_zip (Nat.le_of_eq hlength)
  have hsum := sum_mapIdx_eq_position proof.walk 0
  rw [hfst, pow_zero, Nat.one_mul] at hsum
  exact hsum

theorem verifyProof_eq {proof : MerkleProof} (hlength : proof.pathIndices.length = proof.siblings.length)
    (root : BytesN 32) : verifyProof sha256 proof root =
      some (decide (HashTree.climb (hashPair sha256) proof.walk proof.leaf = root)) := by
  have hfst : proof.walk.map Prod.fst = proof.pathIndices := List.map_fst_zip (Nat.le_of_eq hlength)
  have hsnd : proof.walk.map Prod.snd = proof.siblings := List.map_snd_zip (Nat.le_of_eq hlength.symm)
  have hrecompute := recompute_eq_climb (sha256Hash sha256) proof.walk proof.leaf
  rw [hfst, hsnd] at hrecompute
  rw [verifyProof, Proof.verify, hrecompute]
  rfl

-- A proof of full depth that is accepted is a proof of the tree: its leaf is the node of the bottom
-- layer at its position and its siblings are the siblings on the way up.
theorem verifyProof_binds {tree : MerkleTree} {root : BytesN 32} {proof : MerkleProof}
    (hpos : 1 ≤ leaves.length) (hmax : leaves.length ≤ 2 ^ 20)
    (htree : MerkleTree.fromLeaves sha256 leaves = some (.ok tree)) (hroot : tree.root = some root)
    (hsiblings : proof.siblings.length = tree.depth) (hindices : proof.pathIndices.length = tree.depth)
    (hfree : CollisionFree sha256 (treeInputs leaves tree ++ walkInputs sha256 proof.walk proof.leaf))
    (hverify : verifyProof sha256 proof root = some true) :
    tree.nodeAt 0 (leafPosition proof.pathIndices) = some proof.leaf ∧
    ∀ k < tree.depth, tree.nodeAt k (HashTree.sibling (leafPosition proof.pathIndices / 2 ^ k)) =
      proof.siblings[k]? := by
  have heq := eq_fullTree hpos hmax htree
  subst heq
  rw [root_fullTree] at hroot
  obtain rfl := Option.some.inj hroot
  have hsame : proof.pathIndices.length = proof.siblings.length := hindices.trans hsiblings.symm
  have hsnd : proof.walk.map Prod.snd = proof.siblings := List.map_snd_zip (Nat.le_of_eq hsame.symm)
  have hlength : proof.walk.length = (fullTree (sha256Hash sha256) leaves).depth := by
    rw [← hsiblings, ← hsnd, List.length_map]
  have hclimb : HashTree.climb (hashPair sha256) proof.walk proof.leaf =
      treeNode (sha256Hash sha256) leaves (fullTree (sha256Hash sha256) leaves).depth 0 := by
    rw [verifyProof_eq hsame] at hverify
    exact of_decide_eq_true (Option.some.inj hverify)
  have hruns := runsAlong_of_climb hfree (fun _ => List.mem_append_left _)
    (mem_hashedPairs_of_walk fun _ => List.mem_append_right _) (Nat.le_of_eq hlength) hclimb
  have hnode := hruns.start
  have hwalk := ((runsAlong_fullTree_iff (Nat.le_of_eq hlength)).mp hruns).2
  rw [hlength, Nat.sub_self] at hnode hwalk
  rw [leafPosition_eq_position hsame]
  refine ⟨hnode, fun k hk => ?_⟩
  have hlt : HashTree.position proof.walk 0 / 2 ^ k < 2 ^ ((fullTree (sha256Hash sha256) leaves).depth - k) := by
    have hposition := HashTree.position_lt proof.walk (Nat.two_pow_pos 0)
    rw [hlength, Nat.zero_add] at hposition
    apply Nat.div_lt_of_lt_mul
    rwa [← pow_add, Nat.add_sub_cancel' (Nat.le_of_lt hk)]
  have hsibling := HashTree.sibling_lt_size hk hlt
  have hstep := (congrArg (fun walk => walk[k]?) hwalk).trans (HashTree.getElem?_path _ _ hk 0 _)
  rw [nodeAt_fullTree (sha256Hash sha256) leaves (Nat.le_of_lt hk) hsibling, ← hsnd, List.getElem?_map, hstep,
    Nat.zero_add]
  rfl

def sampleTree : MerkleTree where
  depth := 1
  leafCount := 2
  layers := [sampleHashes, [sampleRoot]]

theorem verifyProof_binds_second :
    sampleTree.nodeAt 0 (leafPosition [true]) = some (sampleHashes.getD 1 zeroHash) ∧
    ∀ k < sampleTree.depth, sampleTree.nodeAt k (HashTree.sibling (leafPosition [true] / 2 ^ k)) =
      [sampleHashes.getD 0 zeroHash][k]? :=
  @verifyProof_binds sampleSha256 sampleLeaves sampleTree sampleRoot
    ⟨[sampleHashes.getD 0 zeroHash], [true], sampleHashes.getD 1 zeroHash, 1⟩ (by decide) (by decide) rfl rfl
    rfl rfl (by decide) rfl

end FullDepth

section Commitment

variable {leaves' : List (BytesN 32)} {inputs : List Bytes}

theorem leafInput_mem_of_tree {data : BytesN 32} (hdata : data ∈ leaves)
    (htree : ∀ input ∈ treeInputs leaves (fullTree (sha256Hash sha256) leaves), input ∈ inputs) :
    leafInput data ∈ inputs :=
  htree _ (List.mem_append_left _ (List.mem_map_of_mem hdata))

-- The leaf hashes and the inner nodes of the trees have different digests.
theorem hashLeaf_ne_hashPair (hfree : CollisionFree sha256 inputs) {data left right : BytesN 32}
    (hleaf : leafInput data ∈ inputs) (hpair : pairInput left right ∈ inputs) :
    hashLeaf sha256 data ≠ hashPair sha256 left right := by
  intro h
  exact leafInput_ne_pairInput data left right (hfree _ hleaf _ hpair h)

-- Walking down the tree of `leaves'` along a walk of the tree of `leaves`.
theorem bottomNode_eq_of_root_eq (hfree : CollisionFree sha256 inputs)
    (htree : ∀ input ∈ treeInputs leaves (fullTree (sha256Hash sha256) leaves), input ∈ inputs)
    (htree' : ∀ input ∈ treeInputs leaves' (fullTree (sha256Hash sha256) leaves'), input ∈ inputs)
    (hdepth : (fullTree (sha256Hash sha256) leaves).depth ≤ (fullTree (sha256Hash sha256) leaves').depth)
    (hroot : (fullTree (sha256Hash sha256) leaves).root = (fullTree (sha256Hash sha256) leaves').root)
    {i : Nat} (hi : i < 2 ^ (fullTree (sha256Hash sha256) leaves).depth) :
    bottomNode (sha256Hash sha256) leaves i = treeNode (sha256Hash sha256) leaves'
      ((fullTree (sha256Hash sha256) leaves').depth - (fullTree (sha256Hash sha256) leaves).depth) i := by
  rw [root_fullTree, root_fullTree, Option.some_inj] at hroot
  have hzero : i / 2 ^ (fullTree (sha256Hash sha256) leaves).depth = 0 := Nat.div_eq_of_lt hi
  have hclimb := HashTree.climb_path (hashPair sha256) (bottomNode (sha256Hash sha256) leaves)
    (fullTree (sha256Hash sha256) leaves).depth 0 i
  have hposition := HashTree.position_path (hashPair sha256) (bottomNode (sha256Hash sha256) leaves)
    (fullTree (sha256Hash sha256) leaves).depth 0 i
  have hlength := HashTree.length_path (hashPair sha256) (bottomNode (sha256Hash sha256) leaves)
    (fullTree (sha256Hash sha256) leaves).depth 0 i
  have hpairs := HashTree.inputs_path_mem (covers_of_tree htree) (fullTree (sha256Hash sha256) leaves).depth
    (Nat.le_of_eq (Nat.zero_add _)) hi
  rw [hzero] at hposition
  rw [hzero, Nat.zero_add] at hclimb
  have hruns := runsAlong_of_climb hfree htree' hpairs (hlength.trans_le hdepth) (hclimb.trans hroot)
  have hnode := ((runsAlong_fullTree_iff (hlength.trans_le hdepth)).mp hruns).1
  rwa [hlength, hposition] at hnode

-- The first leaf of the smaller tree would be an inner node of the larger one.
theorem depth_not_lt_of_root_eq (hpos : 1 ≤ leaves.length) (hfree : CollisionFree sha256 inputs)
    (htree : ∀ input ∈ treeInputs leaves (fullTree (sha256Hash sha256) leaves), input ∈ inputs)
    (htree' : ∀ input ∈ treeInputs leaves' (fullTree (sha256Hash sha256) leaves'), input ∈ inputs)
    (hroot : (fullTree (sha256Hash sha256) leaves).root = (fullTree (sha256Hash sha256) leaves').root) :
    ¬(fullTree (sha256Hash sha256) leaves).depth < (fullTree (sha256Hash sha256) leaves').depth := by
  intro hdepth
  have hnode := bottomNode_eq_of_root_eq hfree htree htree' (Nat.le_of_lt hdepth) hroot (Nat.two_pow_pos _)
  obtain ⟨height, hheight⟩ := Nat.exists_eq_add_of_lt hdepth
  have hlevel : (fullTree (sha256Hash sha256) leaves').depth - (fullTree (sha256Hash sha256) leaves).depth =
      height + 1 := by omega
  have hfirst : bottomNode (sha256Hash sha256) leaves 0 = hashLeaf sha256 leaves[0] := by
    rw [bottomNode, List.getElem?_eq_getElem hpos]
    rfl
  have hpair := covers_of_tree htree' height (by omega) 0 (Nat.two_pow_pos _)
  rw [hlevel, hfirst] at hnode
  exact hashLeaf_ne_hashPair hfree (leafInput_mem_of_tree (List.getElem_mem hpos) htree) hpair hnode

-- A leaf hash is no padding, and two equal ones are of one leaf.
theorem getElem?_eq_of_bottomNode_eq (hfree : CollisionFree sha256 inputs)
    (hzero : ∀ input ∈ inputs, sha256 input ≠ zeroHash)
    (htree : ∀ input ∈ treeInputs leaves (fullTree (sha256Hash sha256) leaves), input ∈ inputs)
    (htree' : ∀ input ∈ treeInputs leaves' (fullTree (sha256Hash sha256) leaves'), input ∈ inputs) {i : Nat}
    (hnode : bottomNode (sha256Hash sha256) leaves i = bottomNode (sha256Hash sha256) leaves' i) :
    leaves[i]? = leaves'[i]? := by
  unfold bottomNode at hnode
  cases hleaf : leaves[i]? with
  | none =>
      cases hleaf' : leaves'[i]? with
      | none => rfl
      | some data' =>
          rw [hleaf, hleaf'] at hnode
          have hmem := leafInput_mem_of_tree (List.mem_of_getElem? hleaf') htree'
          exact absurd hnode.symm (hzero _ hmem)
  | some data =>
      have hmem := leafInput_mem_of_tree (List.mem_of_getElem? hleaf) htree
      cases hleaf' : leaves'[i]? with
      | none =>
          rw [hleaf, hleaf'] at hnode
          exact absurd hnode (hzero _ hmem)
      | some data' =>
          rw [hleaf, hleaf'] at hnode
          have hmem' := leafInput_mem_of_tree (List.mem_of_getElem? hleaf') htree'
          rw [leafInput_injective (hfree _ hmem _ hmem' hnode)]

theorem leaves_eq_of_root_eq {tree tree' : MerkleTree} {root : BytesN 32}
    (hpos : 1 ≤ leaves.length) (hmax : leaves.length ≤ 2 ^ 20)
    (hpos' : 1 ≤ leaves'.length) (hmax' : leaves'.length ≤ 2 ^ 20)
    (htree : MerkleTree.fromLeaves sha256 leaves = some (.ok tree))
    (htree' : MerkleTree.fromLeaves sha256 leaves' = some (.ok tree'))
    (hroot : tree.root = some root) (hroot' : tree'.root = some root)
    (hfree : CollisionFree sha256 (treeInputs leaves tree ++ treeInputs leaves' tree'))
    (hzero : ∀ input ∈ treeInputs leaves tree ++ treeInputs leaves' tree', sha256 input ≠ zeroHash) :
    leaves = leaves' := by
  have heq := eq_fullTree hpos hmax htree
  have heq' := eq_fullTree hpos' hmax' htree'
  subst heq heq'
  have hleft : ∀ input ∈ treeInputs leaves (fullTree (sha256Hash sha256) leaves), input ∈ _ :=
    fun _ => List.mem_append_left (treeInputs leaves' (fullTree (sha256Hash sha256) leaves'))
  have hright : ∀ input ∈ treeInputs leaves' (fullTree (sha256Hash sha256) leaves'), input ∈ _ :=
    fun _ => List.mem_append_right (treeInputs leaves (fullTree (sha256Hash sha256) leaves))
  have hsame := hroot.trans hroot'.symm
  have hdepth : (fullTree (sha256Hash sha256) leaves).depth = (fullTree (sha256Hash sha256) leaves').depth := by
    have hle := Nat.not_lt.mp (depth_not_lt_of_root_eq hpos hfree hleft hright hsame)
    have hge := Nat.not_lt.mp (depth_not_lt_of_root_eq hpos' hfree hright hleft hsame.symm)
    exact Nat.le_antisymm hge hle
  apply List.ext_getElem?
  intro i
  rcases Nat.lt_or_ge i (2 ^ (fullTree (sha256Hash sha256) leaves).depth) with hi | hi
  · have hnode := bottomNode_eq_of_root_eq hfree hleft hright (Nat.le_of_eq hdepth) hsame hi
    rw [hdepth, Nat.sub_self, treeNode, HashTree.node] at hnode
    exact getElem?_eq_of_bottomNode_eq hfree hzero hleft hright hnode
  · have hfits : leaves.length ≤ i := (Nat.le_pow_clog Nat.one_lt_two leaves.length).trans hi
    have hfits' : leaves'.length ≤ i := by
      rw [hdepth] at hi
      exact (Nat.le_pow_clog Nat.one_lt_two leaves'.length).trans hi
    rw [List.getElem?_eq_none hfits, List.getElem?_eq_none hfits']

theorem leaves_eq_of_root_eq_sample : sampleLeaves = sampleLeaves :=
  @leaves_eq_of_root_eq sampleSha256 sampleLeaves sampleLeaves sampleTree sampleTree sampleRoot
    (by decide) (by decide) (by decide) (by decide) rfl rfl rfl rfl (by decide) (by decide)

end Commitment

end Cougr.Zk
