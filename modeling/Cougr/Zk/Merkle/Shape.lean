import Cougr.Zk.Merkle.Tree
import Cougr.Library.HashTree

namespace Cougr.Zk

variable {Leaf Node : Type} (hash : NodeHash Leaf Node)

-- The bottom layer: the hashed leaves, and zeros on every position after them.
def bottomNode (leaves : List Leaf) (i : Nat) : Node := (leaves[i]?.map hash.hashLeaf).getD hash.zero

-- One layer of the tree over these leaves.
def level (leaves : List Leaf) (height count : Nat) : List Node :=
  (List.range count).map (HashTree.node hash.hashPair (bottomNode hash leaves) height)

-- What `from_leaves` builds.
def fullTree (leaves : List Leaf) : Tree Node where
  depth := Nat.clog 2 leaves.length
  leafCount := leaves.length
  layers := (List.range (Nat.clog 2 leaves.length + 1)).map fun height =>
    level hash leaves height (2 ^ (Nat.clog 2 leaves.length - height))

section Build

-- The doubling stops at the first power of two that holds the leaves.
theorem growDepth_eq {leafCount : Nat} (hclog : Nat.clog 2 leafCount < 32) (turns depth : Nat)
    (hdepth : depth ≤ Nat.clog 2 leafCount) (hturns : Nat.clog 2 leafCount < turns + depth) :
    growDepth leafCount turns depth (2 ^ depth) =
      some (Nat.clog 2 leafCount, 2 ^ Nat.clog 2 leafCount) := by
  induction turns generalizing depth with
  | zero => omega
  | succ turns ih =>
      have hfits : leafCount ≤ 2 ^ depth ↔ Nat.clog 2 leafCount ≤ depth :=
        (Nat.clog_le_iff_le_pow Nat.one_lt_two).symm
      rw [growDepth]
      rcases Nat.eq_or_lt_of_le hdepth with heq | hlt
      · rw [if_neg (Nat.not_lt.mpr (hfits.mpr (Nat.le_of_eq heq.symm))), heq]
      · have hsize : 2 ^ depth < leafCount := by
          rw [← Nat.not_le, hfits]
          omega
        have hdouble : 2 * 2 ^ depth = 2 ^ (depth + 1) := (pow_succ' 2 depth).symm
        have hmax : 2 ^ (depth + 1) < 2 ^ 32 := Nat.pow_lt_pow_right Nat.one_lt_two (by omega)
        rw [if_pos hsize, hdouble, if_pos hmax]
        exact ih (depth + 1) (by omega) (by omega)

theorem nextLayer_map_range (count : Nat) (nodes : Nat → Node) :
    nextLayer hash ((List.range (2 * count)).map nodes) =
      some ((List.range count).map fun i => hash.hashPair (nodes (2 * i)) (nodes (2 * i + 1))) := by
  induction count generalizing nodes with
  | zero => rfl
  | succ count ih =>
      have hrest := ih fun i => nodes (i + 2)
      have hdouble : 2 * (count + 1) = 2 * count + 1 + 1 := by omega
      rw [hdouble, List.range_succ_eq_map, List.range_succ_eq_map, List.range_succ_eq_map]
      simp only [List.map_cons, List.map_map, nextLayer]
      have hshift : (List.range (2 * count)).map (nodes ∘ Nat.succ ∘ Nat.succ) =
          (List.range (2 * count)).map fun i => nodes (i + 2) := rfl
      rw [hshift, hrest]
      simp [Function.comp_def, Nat.mul_add]

theorem nextLayer_level (leaves : List Leaf) (height count : Nat) :
    nextLayer hash (level hash leaves height (2 * count)) = some (level hash leaves (height + 1) count) :=
  nextLayer_map_range hash count _

@[simp] theorem length_level (leaves : List Leaf) (height count : Nat) :
    (level hash leaves height count).length = count := by
  simp [level]

theorem layersAbove_level (leaves : List Leaf) (turns height levels : Nat) (hturns : levels ≤ turns) :
    layersAbove hash turns (level hash leaves height (2 ^ levels)) =
      some ((List.range levels).map fun i => level hash leaves (height + 1 + i) (2 ^ (levels - 1 - i))) := by
  induction levels generalizing turns height with
  | zero =>
      cases turns with
      | zero => rfl
      | succ turns => simp [layersAbove]
  | succ levels ih =>
      obtain ⟨turns, rfl⟩ := Nat.exists_eq_succ_of_ne_zero (by omega : turns ≠ 0)
      have hdouble : 2 ^ (levels + 1) = 2 * 2 ^ levels := pow_succ' 2 levels
      have hlong : 2 ^ (levels + 1) > 1 := Nat.one_lt_two_pow (Nat.succ_ne_zero levels)
      have hrest := ih turns (height + 1) (by omega)
      rw [layersAbove, length_level, if_pos hlong, hdouble, nextLayer_level, Option.bind_eq_bind,
        Option.bind_some, hrest, List.range_succ_eq_map]
      simp only [Option.bind_eq_bind, Option.bind_some, Option.pure_def, List.map_cons, List.map_map]
      congr 2
      apply List.map_congr_left
      intro i _
      have hheight : height + 1 + 1 + i = height + 1 + (i + 1) := by omega
      have hexponent : levels - 1 - i = levels + 1 - 1 - (i + 1) := by omega
      simp only [Function.comp_apply, Nat.succ_eq_add_one, hheight, hexponent]

theorem level_zero (leaves : List Leaf) {size : Nat} (hsize : leaves.length ≤ size) :
    leaves.map hash.hashLeaf ++ List.replicate (size - leaves.length) hash.zero = level hash leaves 0 size := by
  have hlength : (leaves.map hash.hashLeaf ++ List.replicate (size - leaves.length) hash.zero).length =
      (level hash leaves 0 size).length := by
    simp only [List.length_append, List.length_map, List.length_replicate, length_level]
    omega
  apply List.ext_getElem hlength
  intro i _ hi
  rw [length_level] at hi
  simp only [level, List.getElem_append, List.length_map, List.getElem_map, List.getElem_replicate,
    List.getElem_range, HashTree.node, bottomNode]
  split_ifs with hleaf
  · rw [List.getElem?_eq_getElem hleaf]
    rfl
  · rw [List.getElem?_eq_none (Nat.not_lt.mp hleaf)]
    rfl

theorem fromLeaves_eq (leaves : List Leaf) (hpos : 1 ≤ leaves.length) (hmax : leaves.length ≤ 2 ^ 20) :
    Tree.fromLeaves hash leaves = some (.ok (fullTree hash leaves)) := by
  have hclog : Nat.clog 2 leaves.length ≤ 20 := Nat.clog_le_of_le_pow hmax
  have hnonempty : leaves.isEmpty = false := by
    rw [← Bool.not_eq_true, List.isEmpty_iff_length_eq_zero]
    omega
  have hgrow : growDepth leaves.length 32 0 1 = some (Nat.clog 2 leaves.length, 2 ^ Nat.clog 2 leaves.length) :=
    growDepth_eq (by omega) 32 0 (Nat.zero_le _) (by omega)
  have hbottom := level_zero hash leaves (Nat.le_pow_clog Nat.one_lt_two leaves.length)
  have habove := layersAbove_level hash leaves (2 ^ Nat.clog 2 leaves.length) 0 (Nat.clog 2 leaves.length)
    (Nat.le_of_lt Nat.lt_two_pow_self)
  have hlayers : (fullTree hash leaves).layers = level hash leaves 0 (2 ^ Nat.clog 2 leaves.length) ::
      (List.range (Nat.clog 2 leaves.length)).map fun i =>
        level hash leaves (0 + 1 + i) (2 ^ (Nat.clog 2 leaves.length - 1 - i)) := by
    simp only [fullTree, List.range_succ_eq_map, List.map_cons, List.map_map]
    congr 1
    apply List.map_congr_left
    intro i _
    have hexponent : Nat.clog 2 leaves.length - 1 - i = Nat.clog 2 leaves.length - (i + 1) := by omega
    simp only [Function.comp_apply, Nat.succ_eq_add_one, Nat.zero_add, Nat.add_comm 1 i, hexponent]
  have hnot : ¬Nat.clog 2 leaves.length > maxDepth := Nat.not_lt.mpr hclog
  simp only [Tree.fromLeaves, hnonempty, hgrow, Bool.false_eq_true, if_false, Outcome.some_bind, if_neg hnot,
    List.length_map, hbottom, length_level, habove, ← hlayers]
  rfl

end Build

end Cougr.Zk
