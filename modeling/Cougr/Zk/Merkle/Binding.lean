import Cougr.Zk.Merkle.Completeness
import Cougr.Zk.Merkle.Proof

namespace Cougr.Zk

section Inputs

def pairsOf {Node : Type} : List Node → List (Node × Node)
  | left :: right :: rest => (left, right) :: pairsOf rest
  | _ => []

-- Everything that is hashed while a tree is built: its leaves, and the nodes of each layer in pairs.
def treeInputs (leaves : List (BytesN 32)) (tree : MerkleTree) : List Bytes :=
  leaves.map leafInput ++ (tree.layers.flatMap pairsOf).map fun pair => pairInput pair.1 pair.2

-- Everything that is hashed on a walk.
def walkInputs (sha256 : Bytes → BytesN 32) (walk : List (Bool × BytesN 32)) (leaf : BytesN 32) : List Bytes :=
  (HashTree.inputs (hashPair sha256) walk leaf).map fun pair => pairInput pair.1 pair.2

def MerkleProof.walk (proof : MerkleProof) : List (Bool × BytesN 32) := proof.pathIndices.zip proof.siblings

-- No two distinct inputs of the list have the same digest.
def CollisionFree (sha256 : Bytes → BytesN 32) (inputs : List Bytes) : Prop :=
  ∀ first ∈ inputs, ∀ second ∈ inputs, sha256 first = sha256 second → first = second

instance (sha256 : Bytes → BytesN 32) (inputs : List Bytes) : Decidable (CollisionFree sha256 inputs) :=
  inferInstanceAs (Decidable (∀ first ∈ inputs, ∀ second ∈ inputs, sha256 first = sha256 second →
    first = second))

theorem pairsOf_map_range {Node : Type} (nodes : Nat → Node) (count : Nat) :
    pairsOf ((List.range (2 * count)).map nodes) =
      (List.range count).map fun i => (nodes (2 * i), nodes (2 * i + 1)) := by
  induction count generalizing nodes with
  | zero => rfl
  | succ count ih =>
      have hrest := ih fun i => nodes (i + 2)
      have hdouble : 2 * (count + 1) = 2 * count + 1 + 1 := by omega
      rw [hdouble, List.range_succ_eq_map, List.range_succ_eq_map, List.range_succ_eq_map]
      simp only [List.map_cons, List.map_map, pairsOf]
      have hshift : (List.range (2 * count)).map (nodes ∘ Nat.succ ∘ Nat.succ) =
          (List.range (2 * count)).map fun i => nodes (i + 2) := rfl
      rw [hshift, hrest]
      simp [Function.comp_def, Nat.mul_add]

-- Every layer but the last, which has the root alone, is hashed in pairs.
theorem mem_pairs_fullTree_iff {Leaf Node : Type} (hash : NodeHash Leaf Node) (leaves : List Leaf)
    (pair : Node × Node) : pair ∈ (fullTree hash leaves).layers.flatMap pairsOf ↔
      ∃ height < (fullTree hash leaves).depth, ∃ i < 2 ^ ((fullTree hash leaves).depth - (height + 1)),
        pair = (treeNode hash leaves height (2 * i), treeNode hash leaves height (2 * i + 1)) := by
  have hpairs : ∀ height < (fullTree hash leaves).depth,
      pairsOf (level hash leaves height (2 ^ ((fullTree hash leaves).depth - height))) =
        (List.range (2 ^ ((fullTree hash leaves).depth - (height + 1)))).map fun i =>
          (treeNode hash leaves height (2 * i), treeNode hash leaves height (2 * i + 1)) := by
    intro height hheight
    rw [HashTree.size_eq_double hheight]
    exact pairsOf_map_range _ _
  have hlast : pairsOf (level hash leaves (fullTree hash leaves).depth
      (2 ^ ((fullTree hash leaves).depth - (fullTree hash leaves).depth))) = [] := by
    rw [Nat.sub_self]
    rfl
  constructor
  · intro hmem
    obtain ⟨layer, hlayer, hpair⟩ := List.mem_flatMap.mp hmem
    obtain ⟨height, hrange, rfl⟩ := List.mem_map.mp hlayer
    rcases Nat.lt_succ_iff_lt_or_eq.mp (List.mem_range.mp hrange) with hheight | rfl
    · have hmap := hpairs height hheight ▸ hpair
      obtain ⟨i, hi, rfl⟩ := List.mem_map.mp hmap
      exact ⟨height, hheight, i, List.mem_range.mp hi, rfl⟩
    · have hnil := hlast ▸ hpair
      exact absurd hnil List.not_mem_nil
  · rintro ⟨height, hheight, i, hi, rfl⟩
    have hlayer := layers_fullTree hash leaves (Nat.le_of_lt hheight)
    refine List.mem_flatMap.mpr ⟨_, List.mem_of_getElem? hlayer, ?_⟩
    rw [hpairs height hheight]
    exact List.mem_map.mpr ⟨i, List.mem_range.mpr hi, rfl⟩

theorem leafInput_injective : Function.Injective leafInput := by
  intro first second h
  exact Vector.toList_inj.mp (List.cons.inj h).2

theorem pairInput_injective {left right left' right' : BytesN 32}
    (h : pairInput left right = pairInput left' right') : left = left' ∧ right = right' := by
  have hlength : left.toList.length = left'.toList.length := by simp
  obtain ⟨hleft, hright⟩ := List.append_inj (List.cons.inj h).2 hlength
  exact ⟨Vector.toList_inj.mp hleft, Vector.toList_inj.mp hright⟩

-- The prefixes keep leaves and inner nodes apart.
theorem leafInput_ne_pairInput (data left right : BytesN 32) : leafInput data ≠ pairInput left right := by
  intro h
  exact absurd (List.cons.inj h).1 (by decide)

end Inputs

section Covers

variable {sha256 : Bytes → BytesN 32} {inputs : List Bytes}

-- The pairs whose input is in a list.
def hashedPairs (inputs : List Bytes) : Set (BytesN 32 × BytesN 32) :=
  {pair | pairInput pair.1 pair.2 ∈ inputs}

theorem injOn_hashedPairs (hfree : CollisionFree sha256 inputs) :
    Set.InjOn (Function.uncurry (hashPair sha256)) (hashedPairs inputs) := by
  intro first hfirst second hsecond h
  obtain ⟨hleft, hright⟩ := pairInput_injective (hfree _ hfirst _ hsecond h)
  exact Prod.ext hleft hright

theorem covers_of_tree {leaves : List (BytesN 32)}
    (hinputs : ∀ input ∈ treeInputs leaves (fullTree (sha256Hash sha256) leaves), input ∈ inputs) :
    HashTree.Covers (hashPair sha256) (bottomNode (sha256Hash sha256) leaves) (hashedPairs inputs)
      (fullTree (sha256Hash sha256) leaves).depth := by
  intro height hheight i hi
  apply hinputs
  apply List.mem_append_right
  apply List.mem_map.mpr
  exact ⟨_, (mem_pairs_fullTree_iff (sha256Hash sha256) leaves _).mpr ⟨height, hheight, i, hi, rfl⟩, rfl⟩

theorem mem_hashedPairs_of_walk {walk : List (Bool × BytesN 32)} {leaf : BytesN 32}
    (hinputs : ∀ input ∈ walkInputs sha256 walk leaf, input ∈ inputs) :
    ∀ pair ∈ HashTree.inputs (hashPair sha256) walk leaf, pair ∈ hashedPairs inputs :=
  fun _ hpair => hinputs _ (List.mem_map_of_mem hpair)

end Covers

section Complete

variable {sha256 sha256' : Bytes → BytesN 32} {leaves : List (BytesN 32)}

-- The lists leave no input out: a hash function that agrees on them builds the same tree and climbs
-- to the same node.
theorem fullTree_congr
    (hagree : ∀ input ∈ treeInputs leaves (fullTree (sha256Hash sha256) leaves), sha256' input = sha256 input) :
    fullTree (sha256Hash sha256') leaves = fullTree (sha256Hash sha256) leaves := by
  have hnode : ∀ height i, height ≤ (fullTree (sha256Hash sha256) leaves).depth →
      i < 2 ^ ((fullTree (sha256Hash sha256) leaves).depth - height) →
      treeNode (sha256Hash sha256') leaves height i = treeNode (sha256Hash sha256) leaves height i := by
    intro height
    induction height with
    | zero =>
        intro i _ _
        simp only [treeNode, HashTree.node, bottomNode]
        cases hleaf : leaves[i]? with
        | none => rfl
        | some data =>
            have hmem : leafInput data ∈ treeInputs leaves (fullTree (sha256Hash sha256) leaves) :=
              List.mem_append_left _ (List.mem_map_of_mem (List.mem_of_getElem? hleaf))
            exact hagree _ hmem
    | succ height ih =>
        intro i hheight hi
        have hdouble := HashTree.size_eq_double (by omega : height < (fullTree (sha256Hash sha256) leaves).depth)
        have hpair := covers_of_tree (fun _ hinput => hinput) height hheight i hi
        simp only [treeNode, HashTree.node] at ih ⊢
        rw [ih (2 * i) (by omega) (by omega), ih (2 * i + 1) (by omega) (by omega)]
        exact hagree _ hpair
  simp only [fullTree, Tree.mk.injEq, true_and]
  apply List.map_congr_left
  intro height hheight
  apply List.map_congr_left
  intro i hi
  exact hnode height i (Nat.le_of_lt_succ (List.mem_range.mp hheight)) (List.mem_range.mp hi)

theorem climb_congr (walk : List (Bool × BytesN 32)) (leaf : BytesN 32)
    (hagree : ∀ input ∈ walkInputs sha256 walk leaf, sha256' input = sha256 input) :
    HashTree.climb (hashPair sha256') walk leaf = HashTree.climb (hashPair sha256) walk leaf := by
  induction walk generalizing leaf with
  | nil => rfl
  | cons step walk ih =>
      obtain ⟨right, other⟩ := step
      have hstep : Function.uncurry (hashPair sha256') (HashTree.ordered right leaf other) =
          Function.uncurry (hashPair sha256) (HashTree.ordered right leaf other) := hagree _ List.mem_cons_self
      rw [HashTree.climb, HashTree.climb, hstep]
      exact ih _ fun input hinput => hagree input (List.mem_cons_of_mem _ hinput)

end Complete

section RunsAlong

-- A walk along the nodes of the tree, from the level that leaves as many levels as it has steps.
structure RunsAlong (tree : MerkleTree) (walk : List (Bool × BytesN 32)) (start : BytesN 32) : Prop where
  start : tree.nodeAt (tree.depth - walk.length) (HashTree.position walk 0) = some start
  steps : tree.walk walk.length (tree.depth - walk.length) (HashTree.position walk 0) =
    some (walk.map Prod.snd, walk.map Prod.fst)

variable {sha256 : Bytes → BytesN 32} {leaves : List (BytesN 32)} {walk : List (Bool × BytesN 32)}
  {start : BytesN 32}

theorem eq_of_map_eq {α β : Type} {first second : List (α × β)}
    (hfst : first.map Prod.fst = second.map Prod.fst) (hsnd : first.map Prod.snd = second.map Prod.snd) :
    first = second := by
  rw [← List.zip_unzip first, ← List.zip_unzip second, List.unzip_eq_map, List.unzip_eq_map, hfst, hsnd]

theorem position_lt_size (hlength : walk.length ≤ (fullTree (sha256Hash sha256) leaves).depth) :
    HashTree.position walk 0 < 2 ^ ((fullTree (sha256Hash sha256) leaves).depth -
      ((fullTree (sha256Hash sha256) leaves).depth - walk.length)) := by
  have hlt := HashTree.position_lt walk (Nat.two_pow_pos 0)
  have hexponent : (fullTree (sha256Hash sha256) leaves).depth -
      ((fullTree (sha256Hash sha256) leaves).depth - walk.length) = 0 + walk.length := by omega
  rwa [hexponent]

theorem runsAlong_fullTree_iff (hlength : walk.length ≤ (fullTree (sha256Hash sha256) leaves).depth) :
    RunsAlong (fullTree (sha256Hash sha256) leaves) walk start ↔
      start = treeNode (sha256Hash sha256) leaves
        ((fullTree (sha256Hash sha256) leaves).depth - walk.length) (HashTree.position walk 0) ∧
      walk = treePath (sha256Hash sha256) leaves walk.length
        ((fullTree (sha256Hash sha256) leaves).depth - walk.length) (HashTree.position walk 0) := by
  have hlt := position_lt_size hlength
  have hnode := nodeAt_fullTree (sha256Hash sha256) leaves (Nat.sub_le _ _) hlt
  have hwalk := walk_fullTree (sha256Hash sha256) leaves walk.length (by omega) hlt
  constructor
  · intro hruns
    obtain ⟨hstart, hsteps⟩ := hruns
    rw [hnode] at hstart
    rw [hwalk] at hsteps
    obtain ⟨hsiblings, hindices⟩ := Prod.ext_iff.mp (Option.some.inj hsteps)
    refine ⟨(Option.some.inj hstart).symm, ?_⟩
    exact (eq_of_map_eq hindices hsiblings).symm
  · intro hruns
    obtain ⟨hstart, hsteps⟩ := hruns
    refine ⟨hstart ▸ hnode, ?_⟩
    rw [hwalk, ← hsteps]

-- A walk along the tree leads to its root.
theorem climb_of_runsAlong (hlength : walk.length ≤ (fullTree (sha256Hash sha256) leaves).depth)
    (hruns : RunsAlong (fullTree (sha256Hash sha256) leaves) walk start) :
    HashTree.climb (hashPair sha256) walk start =
      treeNode (sha256Hash sha256) leaves (fullTree (sha256Hash sha256) leaves).depth 0 := by
  obtain ⟨hstart, hwalk⟩ := (runsAlong_fullTree_iff hlength).mp hruns
  have hclimb := HashTree.climb_path (hashPair sha256) (bottomNode (sha256Hash sha256) leaves) walk.length
    ((fullTree (sha256Hash sha256) leaves).depth - walk.length) (HashTree.position walk 0)
  have hzero : HashTree.position walk 0 / 2 ^ walk.length = 0 := by
    have hlt := HashTree.position_lt walk (Nat.two_pow_pos 0)
    rw [Nat.zero_add] at hlt
    exact Nat.div_eq_of_lt hlt
  rw [hzero, Nat.sub_add_cancel hlength] at hclimb
  rw [hstart]
  nth_rewrite 1 [hwalk]
  exact hclimb

-- Unless digests collide, a walk to the root runs along the tree.
theorem runsAlong_of_climb {inputs : List Bytes} (hfree : CollisionFree sha256 inputs)
    (htree : ∀ input ∈ treeInputs leaves (fullTree (sha256Hash sha256) leaves), input ∈ inputs)
    (hwalk : ∀ pair ∈ HashTree.inputs (hashPair sha256) walk start, pair ∈ hashedPairs inputs)
    (hlength : walk.length ≤ (fullTree (sha256Hash sha256) leaves).depth)
    (hclimb : HashTree.climb (hashPair sha256) walk start =
      treeNode (sha256Hash sha256) leaves (fullTree (sha256Hash sha256) leaves).depth 0) :
    RunsAlong (fullTree (sha256Hash sha256) leaves) walk start := by
  have hlevels : (fullTree (sha256Hash sha256) leaves).depth - walk.length + walk.length =
      (fullTree (sha256Hash sha256) leaves).depth := Nat.sub_add_cancel hlength
  apply (runsAlong_fullTree_iff hlength).mpr
  apply HashTree.climb_binds (injOn_hashedPairs hfree) (covers_of_tree htree) walk start hwalk
    (Nat.le_of_eq hlevels) (Nat.two_pow_pos _)
  rw [hlevels]
  exact hclimb

end RunsAlong

end Cougr.Zk
