import Cougr.Zk.Merkle.Sparse

namespace Cougr.Zk

variable {Leaf Node : Type} (hash : NodeHash Leaf Node)

-- The root of an empty subtree.
def defaultNode : Nat → Node
  | 0 => hash.zero
  | level + 1 => hash.hashPair (defaultNode level) (defaultNode level)

namespace SparseTree

-- Every node of the full tree, stored or not.
def table (self : SparseTree Node) (key : Nat × Nat) : Node :=
  (self.nodes.get key).getD (defaultNode hash key.1)

structure WellFormed (tree : SparseTree Node) : Prop where
  defaults : tree.defaults = (List.range (smtDepth + 1)).map (defaultNode hash)
  consistent : HashTree.Consistent hash.hashPair smtDepth (tree.table hash)
  root : tree.root = tree.table hash (smtDepth, 0)

variable {hash}

section New

theorem foldlM_pushDefault (levels : Nat) :
    (List.range levels).foldlM (fun defaults _ => pushDefault hash defaults) [hash.zero] =
      some ((List.range (levels + 1)).map (defaultNode hash)) := by
  induction levels with
  | zero => rfl
  | succ levels ih =>
      have hlast : ((List.range (levels + 1)).map (defaultNode hash)).getLast? =
          some (defaultNode hash levels) := by
        simp [List.range_succ]
      have hpush : pushDefault hash ((List.range (levels + 1)).map (defaultNode hash)) =
          some ((List.range (levels + 1 + 1)).map (defaultNode hash)) := by
        rw [pushDefault, hlast, List.range_succ (n := levels + 1), List.map_append]
        rfl
      rw [List.range_succ, List.foldlM_append, ih, Option.bind_eq_bind, Option.bind_some, List.foldlM_cons, hpush]
      rfl

theorem getNode_eq {self : SparseTree Node}
    (hdefaults : self.defaults = (List.range (smtDepth + 1)).map (defaultNode hash)) {level : Nat}
    (hlevel : level ≤ smtDepth) (index : Nat) :
    self.getNode level index = some (self.table hash (level, index)) := by
  have hdefault : self.defaults[level]? = some (defaultNode hash level) := by
    rw [hdefaults, List.getElem?_map, List.getElem?_range (Nat.lt_succ_of_le hlevel)]
    rfl
  rw [getNode, hdefault]
  rfl

-- In the empty tree every node is a default.
theorem wellFormed_new : ∃ self, new hash = some self ∧ WellFormed hash self ∧
    ∀ key, self.nodes.get key = none := by
  have hdefaults : precomputeDefaults hash = some ((List.range (smtDepth + 1)).map (defaultNode hash)) :=
    foldlM_pushDefault smtDepth
  have hroot : ((List.range (smtDepth + 1)).map (defaultNode hash))[smtDepth]? =
      some (defaultNode hash smtDepth) := by
    rw [List.getElem?_map, List.getElem?_range (Nat.lt_succ_self _)]
    rfl
  refine ⟨⟨defaultNode hash smtDepth, Map.new, (List.range (smtDepth + 1)).map (defaultNode hash)⟩, ?_, ?_,
    fun key => Map.get_new key⟩
  · rw [new, hdefaults, Option.bind_eq_bind, Option.bind_some, hroot]
    rfl
  · refine ⟨rfl, fun height _ j => ?_, ?_⟩
    · simp [table, defaultNode]
    · simp [table]

end New

section Insert

variable {self : SparseTree Node}

theorem table_set (key other : Nat × Nat) (node : Node) :
    table hash { self with nodes := self.nodes.set key node } other =
      Function.update (self.table hash) key node other := by
  rw [table, Map.get_set, Function.update_apply]
  split_ifs <;> rfl

-- The loop repairs the path above leaf `i`, level by level, and touches no leaf.
theorem recomputePath_spec {i : Nat} (turns level : Nat) (self : SparseTree Node)
    (hlevel : level + turns = smtDepth)
    (hdefaults : self.defaults = (List.range (smtDepth + 1)).map (defaultNode hash))
    (hbelow : HashTree.ConsistentBelow hash.hashPair smtDepth level i (self.table hash)) :
    ∃ next, recomputePath hash turns level (i / 2 ^ level) self = some next ∧
      next.defaults = self.defaults ∧ HashTree.Consistent hash.hashPair smtDepth (next.table hash) ∧
      ∀ j, next.nodes.get (0, j) = self.nodes.get (0, j) := by
  induction turns generalizing level self with
  | zero =>
      obtain rfl : level = smtDepth := hlevel
      exact ⟨self, rfl, rfl, HashTree.consistent_of_consistentBelow hbelow, fun _ => rfl⟩
  | succ turns ih =>
      have hhalf : i / 2 ^ level / 2 = i / 2 ^ (level + 1) := by rw [Nat.div_div_eq_div_mul, ← pow_succ]
      have hleft : (if i / 2 ^ level % 2 = 0 then i / 2 ^ level else
          if i / 2 ^ level % 2 = 0 then i / 2 ^ level + 1 else i / 2 ^ level - 1) =
            2 * (i / 2 ^ (level + 1)) := by
        split_ifs <;> omega
      have hright : (if i / 2 ^ level % 2 = 0 then
          if i / 2 ^ level % 2 = 0 then i / 2 ^ level + 1 else i / 2 ^ level - 1 else i / 2 ^ level) =
          2 * (i / 2 ^ (level + 1)) + 1 := by
        split_ifs <;> omega
      have hnode := HashTree.consistentBelow_update_node hbelow
      let parent := hash.hashPair (self.table hash (level, 2 * (i / 2 ^ (level + 1))))
        (self.table hash (level, 2 * (i / 2 ^ (level + 1)) + 1))
      have htable : table hash { self with nodes := self.nodes.set (level + 1, i / 2 ^ (level + 1)) parent } =
          Function.update (self.table hash) (level + 1, i / 2 ^ (level + 1)) parent :=
        funext fun other => table_set (level + 1, i / 2 ^ (level + 1)) other parent
      obtain ⟨next, hnext, hdefaults', hconsistent, hleaves⟩ :=
        ih (level + 1) { self with nodes := self.nodes.set (level + 1, i / 2 ^ (level + 1)) parent } (by omega)
          hdefaults (htable ▸ hnode)
      refine ⟨next, ?_, hdefaults', hconsistent, fun j => ?_⟩
      · simp only [recomputePath, hleft, hright, hhalf, getNode_eq hdefaults (by omega : level ≤ smtDepth)]
        exact hnext
      · rw [hleaves, Map.get_set, if_neg (by simp)]

theorem insert_spec (h : WellFormed hash self) (key : BytesN 32) (value : Leaf) :
    ∃ next, self.insert hash key value = some next ∧ WellFormed hash next ∧
      ∀ j, next.nodes.get (0, j) =
        if j = keyToIndex key then some (hash.hashLeaf value) else self.nodes.get (0, j) := by
  have htable : table hash { self with nodes := self.nodes.set (0, keyToIndex key) (hash.hashLeaf value) } =
      Function.update (self.table hash) (0, keyToIndex key) (hash.hashLeaf value) :=
    funext fun other => table_set (0, keyToIndex key) other (hash.hashLeaf value)
  have hbelow := HashTree.consistentBelow_update_leaf h.consistent (keyToIndex key) (hash.hashLeaf value)
  obtain ⟨next, hnext, hdefaults, hconsistent, hleaves⟩ := recomputePath_spec smtDepth 0
    { self with nodes := self.nodes.set (0, keyToIndex key) (hash.hashLeaf value) } (Nat.zero_add _) h.defaults
    (htable ▸ hbelow)
  have hroot := getNode_eq (hdefaults.trans h.defaults) (Nat.le_refl smtDepth) 0
  rw [pow_zero, Nat.div_one] at hnext
  refine ⟨{ next with root := next.table hash (smtDepth, 0) }, ?_,
    ⟨hdefaults.trans h.defaults, hconsistent, rfl⟩, fun j => ?_⟩
  · rw [insert, hnext, Option.bind_eq_bind, Option.bind_some, hroot]
    rfl
  · rw [hleaves, Map.get_set]
    simp

end Insert

end SparseTree

end Cougr.Zk
