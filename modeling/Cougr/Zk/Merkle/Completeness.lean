import Cougr.Zk.Merkle.Shape
import Mathlib.Order.Bounds.Basic

namespace Cougr.Zk

variable {Leaf Node : Type} (hash : NodeHash Leaf Node) (leaves : List Leaf)

section Reading

-- The node of the full tree, out of range or not.
abbrev treeNode (height i : Nat) : Node := HashTree.node hash.hashPair (bottomNode hash leaves) height i

abbrev treePath (count height i : Nat) : List (Bool × Node) :=
  HashTree.path hash.hashPair (bottomNode hash leaves) count height i

theorem layers_fullTree {height : Nat} (hheight : height ≤ (fullTree hash leaves).depth) :
    (fullTree hash leaves).layers[height]? =
      some (level hash leaves height (2 ^ ((fullTree hash leaves).depth - height))) := by
  have hrange : height < Nat.clog 2 leaves.length + 1 := Nat.lt_succ_of_le hheight
  simp only [fullTree, List.getElem?_map, List.getElem?_range hrange, Option.map_some]

theorem nodeAt_fullTree {height i : Nat} (hheight : height ≤ (fullTree hash leaves).depth)
    (hi : i < 2 ^ ((fullTree hash leaves).depth - height)) :
    (fullTree hash leaves).nodeAt height i = some (treeNode hash leaves height i) := by
  simp only [Tree.nodeAt, layers_fullTree hash leaves hheight, Option.bind_eq_bind, Option.bind_some, level,
    List.getElem?_map, List.getElem?_range hi, Option.map_some]

theorem root_fullTree :
    (fullTree hash leaves).root = some (treeNode hash leaves (fullTree hash leaves).depth 0) := by
  have hlast : (fullTree hash leaves).layers.getLast? =
      (fullTree hash leaves).layers[(fullTree hash leaves).depth]? := by
    rw [List.getLast?_eq_getElem?]
    simp [fullTree]
  rw [Tree.root, hlast]
  exact nodeAt_fullTree hash leaves (Nat.le_refl _) (Nat.two_pow_pos _)

theorem walk_fullTree (turns : Nat) {height i : Nat} (hheight : height + turns ≤ (fullTree hash leaves).depth)
    (hi : i < 2 ^ ((fullTree hash leaves).depth - height)) :
    (fullTree hash leaves).walk turns height i =
      some ((treePath hash leaves turns height i).map Prod.snd,
        (treePath hash leaves turns height i).map Prod.fst) := by
  induction turns generalizing height i with
  | zero => rfl
  | succ turns ih =>
      have hbelow : height < (fullTree hash leaves).depth := by omega
      have hdouble := HashTree.size_eq_double hbelow
      have hsibling := HashTree.sibling_lt_size hbelow hi
      have hnode := nodeAt_fullTree hash leaves (by omega) hsibling
      have hrest := ih (by omega : height + 1 + turns ≤ (fullTree hash leaves).depth)
        (by omega : i / 2 < 2 ^ ((fullTree hash leaves).depth - (height + 1)))
      unfold HashTree.sibling at hnode
      simp only [Tree.walk, hnode, hrest, Option.bind_eq_bind, Option.bind_some, Option.pure_def,
        HashTree.path, HashTree.sibling, List.map_cons]
      rcases Nat.mod_two_eq_zero_or_one i with heven | hodd
      · simp [heven]
      · simp [hodd]

-- The verifier climbs; directions past the last sibling are not read.
theorem recompute_eq_climb (walk : List (Bool × Node)) (current : Node) :
    recompute hash (walk.map Prod.snd) (walk.map Prod.fst) current =
      some (HashTree.climb hash.hashPair walk current) := by
  induction walk generalizing current with
  | nil => rfl
  | cons step walk ih =>
      obtain ⟨right, other⟩ := step
      rw [List.map_cons, List.map_cons, recompute, ih, HashTree.climb]
      cases right <;> rfl

end Reading

section Completeness

theorem proof_fullTree {i : Nat} (hi : i < leaves.length) :
    (fullTree hash leaves).proof i = some (.ok {
      siblings := (treePath hash leaves (fullTree hash leaves).depth 0 i).map Prod.snd
      pathIndices := (treePath hash leaves (fullTree hash leaves).depth 0 i).map Prod.fst
      leaf := treeNode hash leaves 0 i
      leafIndex := i }) := by
  have hsize : i < 2 ^ ((fullTree hash leaves).depth - 0) :=
    Nat.lt_of_lt_of_le hi (Nat.le_pow_clog Nat.one_lt_two leaves.length)
  have hwalk := walk_fullTree hash leaves (fullTree hash leaves).depth (Nat.le_of_eq (Nat.zero_add _)) hsize
  have hleaf := nodeAt_fullTree hash leaves (Nat.zero_le _) hsize
  have hnot : ¬i ≥ (fullTree hash leaves).leafCount := Nat.not_le.mpr hi
  simp only [Tree.proof, if_neg hnot, hwalk, hleaf, Outcome.some_bind]
  rfl

theorem proof_fullTree_of_le {i : Nat} (hi : leaves.length ≤ i) :
    (fullTree hash leaves).proof i = some (.error .LeafOutOfBounds) := by
  have hout : i ≥ (fullTree hash leaves).leafCount := hi
  simp only [Tree.proof, if_pos hout]
  rfl

-- A tree of these leaves can be built, and serves a proof for each of them that the verifier accepts.
def Serves (fromLeaves : List Leaf → Outcome (Tree Node))
    (verify : Proof Node → Node → Option Bool) (leaves : List Leaf) : Prop :=
  ∃ tree root, fromLeaves leaves = some (.ok tree) ∧ tree.root = some root ∧
    IsLeast {depth | leaves.length ≤ 2 ^ depth} tree.depth ∧
    tree.layers.length = tree.depth + 1 ∧
    (∀ k ≤ tree.depth, ∃ layer, tree.layers[k]? = some layer ∧ layer.length = 2 ^ (tree.depth - k)) ∧
    (∀ i < leaves.length, ∃ proof, tree.proof i = some (.ok proof) ∧
      proof.siblings.length = tree.depth ∧ verify proof root = some true) ∧
    ∀ i ≥ leaves.length, tree.proof i = some (.error .LeafOutOfBounds)

theorem serves_of_hash [DecidableEq Node] (hpos : 1 ≤ leaves.length) (hmax : leaves.length ≤ 2 ^ 20) :
    Serves (Tree.fromLeaves hash) (fun proof root => proof.verify hash root) leaves := by
  refine ⟨fullTree hash leaves, _, fromLeaves_eq hash leaves hpos hmax, root_fullTree hash leaves,
    ⟨Nat.le_pow_clog Nat.one_lt_two _, fun depth hdepth => Nat.clog_le_of_le_pow hdepth⟩, ?_, ?_, ?_, ?_⟩
  · simp [fullTree]
  · intro k hk
    exact ⟨_, layers_fullTree hash leaves hk, length_level ..⟩
  · intro i hi
    have hzero : i / 2 ^ (fullTree hash leaves).depth = 0 :=
      Nat.div_eq_of_lt (Nat.lt_of_lt_of_le hi (Nat.le_pow_clog Nat.one_lt_two _))
    have hclimb := HashTree.climb_path hash.hashPair (bottomNode hash leaves) (fullTree hash leaves).depth 0 i
    rw [hzero, Nat.zero_add] at hclimb
    refine ⟨_, proof_fullTree hash leaves hi, by simp, ?_⟩
    simp only [Proof.verify, recompute_eq_climb, hclimb, Option.bind_eq_bind, Option.bind_some]
    simp
  · intro i hi
    exact proof_fullTree_of_le hash leaves hi

theorem merkleTrees_serve (sha256 : Bytes → BytesN 32) (host : Poseidon2) (params : Poseidon2Params)
    (leaves : List (BytesN 32)) (elements : List U256) (hpos : 1 ≤ leaves.length)
    (hmax : leaves.length ≤ 2 ^ 20) (hpos' : 1 ≤ elements.length) (hmax' : elements.length ≤ 2 ^ 20) :
    Serves (MerkleTree.fromLeaves sha256) (verifyProof sha256) leaves ∧
    Serves (PoseidonMerkleTree.fromLeaves host params) (verifyPoseidonProof host params) elements :=
  ⟨serves_of_hash (sha256Hash sha256) leaves hpos hmax,
    serves_of_hash (poseidonHash host params) elements hpos' hmax'⟩

theorem sampleTrees_serve :
    Serves (MerkleTree.fromLeaves sampleSha256) (verifyProof sampleSha256) sampleLeaves ∧
    Serves (PoseidonMerkleTree.fromLeaves
        ⟨fun input _ _ _ _ _ _ _ => input.reverse, fun _ _ _ _ _ _ _ _ => List.length_reverse⟩
        ⟨symbolShort "BN254", 2, 5, 8, 56, [], []⟩)
      (verifyPoseidonProof
        ⟨fun input _ _ _ _ _ _ _ => input.reverse, fun _ _ _ _ _ _ _ _ => List.length_reverse⟩
        ⟨symbolShort "BN254", 2, 5, 8, 56, [], []⟩) [7, 8, 9] :=
  merkleTrees_serve sampleSha256 _ _ sampleLeaves [7, 8, 9] (by decide) (by decide) (by decide) (by decide)

end Completeness

end Cougr.Zk
