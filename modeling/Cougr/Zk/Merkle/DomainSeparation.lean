import Cougr.Zk.Merkle.Binding

namespace Cougr.Zk

variable {params : Poseidon2Params}

section Feeds

-- The state that a hash feeds the permutation: whatever the host, the hash is the first element of its
-- answer to that state.
def Feeds (params : Poseidon2Params) (hash : Poseidon2 → U256) (state : List U256) : Prop :=
  ∀ host, (poseidon2Permutation host params state).head? = some (hash host)

def FeedAlike (params : Poseidon2Params) (first second : Poseidon2 → U256) : Prop :=
  ∃ state, Feeds params first state ∧ Feeds params second state

-- A host that answers ones to this state and zeros to every other.
def markingHost (state : List U256) : Poseidon2 where
  permutation input _ _ _ _ _ _ _ := List.replicate input.length (if input = state then 1 else 0)
  length_permutation _ _ _ _ _ _ _ _ := List.length_replicate

theorem feeds_poseidon2Hash_iff {a b : U256} {state : List U256} :
    Feeds params (fun host => poseidon2Hash host params a b) state ↔ state = poseidon2Input params a b := by
  constructor
  · intro hfeeds
    have hhash : poseidon2Hash (markingHost (poseidon2Input params a b)) params a b = 1 := by
      simp [poseidon2Hash, poseidon2Permutation, markingHost]
    have hhead := (hfeeds (markingHost (poseidon2Input params a b))).trans (congrArg some hhash)
    by_contra hne
    simp [poseidon2Permutation, markingHost, hne, List.head?_replicate] at hhead
  · rintro rfl host
    exact List.head?_eq_some_head _

theorem poseidon2Input_inj {a b a' b' : U256} :
    poseidon2Input params a b = poseidon2Input params a' b' ↔ a = a' ∧ b = b' := by
  simp [poseidon2Input]

theorem feedAlike_poseidon2Hash_iff {a b a' b' : U256} :
    FeedAlike params (fun host => poseidon2Hash host params a b) (fun host => poseidon2Hash host params a' b') ↔
      a = a' ∧ b = b' := by
  simp [FeedAlike, feeds_poseidon2Hash_iff, poseidon2Input_inj]

end Feeds

section Tree

-- No node of the tree is hashed from the state of a leaf, and one element is not hashed from the state of two.
structure DomainSeparated (host : Poseidon2) (params : Poseidon2Params) (leaves : List U256)
    (input a b : U256) : Prop where
  nodes : ∃ tree, PoseidonMerkleTree.fromLeaves host params leaves = some (.ok tree) ∧
    ∀ pair ∈ tree.layers.flatMap pairsOf, ∀ element,
      ¬FeedAlike params (fun host => (poseidonHash host params).hashPair pair.1 pair.2)
        (fun host => (poseidonHash host params).hashLeaf element)
  single : ¬FeedAlike params (fun host => poseidon2HashSingle host params input)
    (fun host => poseidon2Hash host params a b)

-- Of the leaves cut into blocks of `2 ^ height`, none that stands on the right hashes to zero.
def RightBlocksNonzero (host : Poseidon2) (params : Poseidon2Params) (leaves : List U256) : Prop :=
  ∀ height i, 2 ^ height * (2 * i + 2) ≤ leaves.length →
    treeNode (poseidonHash host params) leaves height (2 * i + 1) ≠ 0

variable {host : Poseidon2} {leaves : List U256}

theorem block_le_iff {depth height i : Nat} :
    2 ^ height * (2 * i + 2) ≤ 2 ^ depth ↔ height < depth ∧ i < 2 ^ (depth - (height + 1)) := by
  have hblock : 2 ^ height * (2 * i + 2) = 2 ^ (height + 1) * (i + 1) := by ring
  rw [hblock]
  rcases Nat.lt_or_ge height depth with hlt | hge
  · have hsplit : 2 ^ depth = 2 ^ (height + 1) * 2 ^ (depth - (height + 1)) := by
      rw [← pow_add, Nat.add_sub_cancel' hlt]
    rw [hsplit, Nat.mul_le_mul_left_iff (Nat.two_pow_pos _), Nat.succ_le_iff, and_iff_right hlt]
  · have hsmall : 2 ^ depth < 2 ^ (height + 1) := Nat.pow_lt_pow_right Nat.one_lt_two (by omega)
    have hlong : 2 ^ (height + 1) ≤ 2 ^ (height + 1) * (i + 1) := Nat.le_mul_of_pos_right _ (Nat.succ_pos i)
    exact iff_of_false (by omega) (fun h => absurd h.1 (Nat.not_lt.mpr hge))

-- The last position of a layer that has leaves and padding is a padded one, and a right one.
theorem length_eq_of_right_nonzero (hpos : 1 ≤ leaves.length)
    (hall : ∀ pair ∈ (fullTree (poseidonHash host params) leaves).layers.flatMap pairsOf, pair.2 ≠ 0) :
    leaves.length = 2 ^ (fullTree (poseidonHash host params) leaves).depth := by
  apply Nat.le_antisymm (Nat.le_pow_clog Nat.one_lt_two _)
  by_contra hless
  have hshort : leaves.length < 2 ^ (fullTree (poseidonHash host params) leaves).depth := Nat.not_le.mp hless
  obtain ⟨below, hdepth⟩ : ∃ below, (fullTree (poseidonHash host params) leaves).depth = below + 1 := by
    apply Nat.exists_eq_succ_of_ne_zero
    intro hzero
    rw [hzero] at hshort
    omega
  have hhalf := Nat.two_pow_pos below
  rw [hdepth, pow_succ] at hshort
  apply hall _ ((mem_pairs_fullTree_iff (poseidonHash host params) leaves _).mpr
    ⟨0, by omega, 2 ^ below - 1, by rw [hdepth, Nat.zero_add, Nat.add_sub_cancel]; omega, rfl⟩)
  have hpadding : leaves[2 * (2 ^ below - 1) + 1]? = none := List.getElem?_eq_none (by omega)
  simp only [HashTree.node, bottomNode, hpadding, Option.map_none, Option.getD_none]
  rfl

theorem right_nonzero_iff (hpos : 1 ≤ leaves.length) :
    (∀ pair ∈ (fullTree (poseidonHash host params) leaves).layers.flatMap pairsOf, pair.2 ≠ 0) ↔
      (∃ k, leaves.length = 2 ^ k) ∧ RightBlocksNonzero host params leaves := by
  constructor
  · intro hall
    have hfull := length_eq_of_right_nonzero hpos hall
    refine ⟨⟨_, hfull⟩, fun height i hblock => ?_⟩
    rw [hfull] at hblock
    obtain ⟨hheight, hi⟩ := block_le_iff.mp hblock
    exact hall _ ((mem_pairs_fullTree_iff _ leaves _).mpr ⟨height, hheight, i, hi, rfl⟩)
  · rintro ⟨⟨k, hk⟩, hblocks⟩ pair hpair
    have hdepth : (fullTree (poseidonHash host params) leaves).depth = k := by
      simp only [fullTree, hk, Nat.clog_pow 2 k Nat.one_lt_two]
    obtain ⟨height, hheight, i, hi, rfl⟩ := (mem_pairs_fullTree_iff _ leaves _).mp hpair
    rw [hdepth] at hheight hi
    exact hblocks height i (hk ▸ block_le_iff.mpr ⟨hheight, hi⟩)

-- Padding puts a zero on the right of a pair unless the leaves fill their layer, and the hash of one
-- element is the hash of two of which the second is zero.
theorem domainSeparated_iff (host : Poseidon2) (params : Poseidon2Params) (leaves : List U256)
    (input a b : U256) (hpos : 1 ≤ leaves.length) (hmax : leaves.length ≤ 2 ^ 20) :
    DomainSeparated host params leaves input a b ↔
      ((∃ k, leaves.length = 2 ^ k) ∧ RightBlocksNonzero host params leaves) ∧ ¬(a = input ∧ b = 0) := by
  have hsingle : FeedAlike params (fun host => poseidon2HashSingle host params input)
      (fun host => poseidon2Hash host params a b) ↔ a = input ∧ b = 0 := by
    have hiff := @feedAlike_poseidon2Hash_iff params input 0 a b
    rw [eq_comm (a := input), eq_comm (a := (0 : U256))] at hiff
    exact hiff
  have hleaf : ∀ left right element : U256,
      FeedAlike params (fun host => (poseidonHash host params).hashPair left right)
        (fun host => (poseidonHash host params).hashLeaf element) ↔ left = element ∧ right = 0 :=
    fun left right element => feedAlike_poseidon2Hash_iff
  have hnodes : (∀ pair ∈ (fullTree (poseidonHash host params) leaves).layers.flatMap pairsOf, ∀ element,
      ¬FeedAlike params (fun host => (poseidonHash host params).hashPair pair.1 pair.2)
        (fun host => (poseidonHash host params).hashLeaf element)) ↔
      ∀ pair ∈ (fullTree (poseidonHash host params) leaves).layers.flatMap pairsOf, pair.2 ≠ 0 := by
    refine forall₂_congr fun pair _ => ?_
    simp only [hleaf]
    constructor
    · intro h hzero
      exact h pair.1 ⟨rfl, hzero⟩
    · intro h element halike
      exact h halike.2
  have hbuilt := fromLeaves_eq (poseidonHash host params) leaves hpos hmax
  rw [← right_nonzero_iff hpos, ← hnodes, ← hsingle]
  constructor
  · rintro ⟨⟨tree, htree, hpairs⟩, hdistinct⟩
    obtain rfl := Except.ok.inj (Option.some.inj (hbuilt.symm.trans htree))
    exact ⟨hpairs, hdistinct⟩
  · rintro ⟨hpairs, hdistinct⟩
    exact ⟨⟨_, hbuilt, hpairs⟩, hdistinct⟩

-- A permutation that leaves the state as it is.
def keepingHost : Poseidon2 where
  permutation input _ _ _ _ _ _ _ := input
  length_permutation _ _ _ _ _ _ _ _ := rfl

def keepingParams : Poseidon2Params where
  field := symbolShort "BLS12"
  t := 3
  d := 5
  roundsF := 8
  roundsP := 56
  matInternalDiagM1 := []
  roundConstants := []

-- Two leaves fill their layer.
theorem two_leaves_separated : DomainSeparated keepingHost keepingParams [7, 8] 1 2 3 := by
  apply (domainSeparated_iff keepingHost keepingParams [7, 8] 1 2 3 (by decide) (by decide)).mpr
  refine ⟨⟨⟨1, rfl⟩, fun height i hblock => ?_⟩, by decide⟩
  obtain ⟨hheight, hi⟩ := (@block_le_iff 1 height i).mp hblock
  obtain rfl : height = 0 := by omega
  obtain rfl : i = 0 := by omega
  decide

-- Three leaves leave one position, whose zero is hashed with the third of them; and one element is hashed
-- as itself and a zero.
theorem third_leaf_hashed_as_leaf : ¬DomainSeparated keepingHost keepingParams [7, 8, 9] 1 2 3 ∧
    FeedAlike keepingParams (fun host => poseidon2HashSingle host keepingParams 5)
      (fun host => poseidon2Hash host keepingParams 5 0) := by
  constructor
  · rintro ⟨⟨tree, htree, hpairs⟩, _⟩
    have hbuilt : PoseidonMerkleTree.fromLeaves keepingHost keepingParams [7, 8, 9] =
        some (.ok ⟨2, 3, [[7, 8, 9, 0], [7, 9], [7]]⟩) := rfl
    obtain rfl := Except.ok.inj (Option.some.inj (hbuilt.symm.trans htree))
    exact hpairs (9, 0) (by decide) 9 (feedAlike_poseidon2Hash_iff.mpr ⟨rfl, rfl⟩)
  · exact feedAlike_poseidon2Hash_iff.mpr ⟨rfl, rfl⟩

end Tree

end Cougr.Zk
