import Mathlib.Algebra.Order.Ring.Nat
import Mathlib.Data.Set.Function
import Mathlib.Tactic.Ring

-- Complete binary trees whose inner nodes are computed from their two children, and the walks
-- that lead from a node to the root.
namespace HashTree

variable {α : Type*} (pair : α → α → α)

def node (leaf : Nat → α) : Nat → Nat → α
  | 0, i => leaf i
  | height + 1, i => pair (node leaf height (2 * i)) (node leaf height (2 * i + 1))

def sibling (i : Nat) : Nat := if i % 2 = 0 then i + 1 else i - 1

-- The two children in order, when the current one is the right or the left of them.
def ordered (right : Bool) (current other : α) : α × α :=
  if right then (other, current) else (current, other)

-- A walk to the root: for each level the side of the current node and its sibling.
def climb : List (Bool × α) → α → α
  | [], current => current
  | (right, other) :: walk, current =>
    climb walk (Function.uncurry pair (ordered right current other))

-- The pairs that are hashed on the way.
def inputs : List (Bool × α) → α → List (α × α)
  | [], _ => []
  | (right, other) :: walk, current =>
    ordered right current other :: inputs walk (Function.uncurry pair (ordered right current other))

-- Where a walk starts, in its level, when it ends at position `j` of the level it leads to.
def position : List (Bool × α) → Nat → Nat
  | [], j => j
  | (right, _) :: walk, j => 2 * position walk j + right.toNat

-- The walk of the tree itself, over `count` levels.
def path (leaf : Nat → α) : Nat → Nat → Nat → List (Bool × α)
  | 0, _, _ => []
  | count + 1, height, i =>
    (i % 2 = 1, node pair leaf height (sibling i)) :: path leaf count (height + 1) (i / 2)

section Climb

theorem climb_append (first second : List (Bool × α)) (current : α) :
    climb pair (first ++ second) current = climb pair second (climb pair first current) := by
  induction first generalizing current with
  | nil => rfl
  | cons step first ih => exact ih _

theorem inputs_append (first second : List (Bool × α)) (current : α) :
    inputs pair (first ++ second) current =
      inputs pair first current ++ inputs pair second (climb pair first current) := by
  induction first generalizing current with
  | nil => rfl
  | cons step first ih => exact congrArg _ (ih _)

-- After a step or more the current node is the hash of the last pair.
theorem exists_input_of_ne_nil {walk : List (Bool × α)} (hwalk : walk ≠ []) (current : α) :
    ∃ input ∈ inputs pair walk current, climb pair walk current = Function.uncurry pair input := by
  induction walk generalizing current with
  | nil => exact absurd rfl hwalk
  | cons step walk ih =>
      obtain ⟨right, other⟩ := step
      cases walk with
      | nil => exact ⟨_, List.mem_singleton_self _, rfl⟩
      | cons next walk =>
          obtain ⟨input, hinput, hclimb⟩ :=
            ih (List.cons_ne_nil next walk) (Function.uncurry pair (ordered right current other))
          exact ⟨input, List.mem_cons_of_mem _ hinput, hclimb⟩

end Climb

variable (leaf : Nat → α)

-- A level has twice as many nodes as the level above it.
theorem size_eq_double {depth height : Nat} (hheight : height < depth) :
    2 ^ (depth - height) = 2 * 2 ^ (depth - (height + 1)) := by
  have hexponent : depth - height = depth - (height + 1) + 1 := by omega
  rw [hexponent, pow_succ']

section Completeness

theorem sibling_lt {i n : Nat} (hi : i < 2 ^ (n + 1)) : sibling i < 2 ^ (n + 1) := by
  have hdouble : 2 ^ (n + 1) = 2 * 2 ^ n := pow_succ' 2 n
  unfold sibling
  split_ifs <;> omega

theorem sibling_lt_size {depth height i : Nat} (hheight : height < depth) (hi : i < 2 ^ (depth - height)) :
    sibling i < 2 ^ (depth - height) := by
  have hexponent : depth - height = depth - (height + 1) + 1 := by omega
  rw [hexponent] at hi ⊢
  exact sibling_lt hi

theorem ordered_node (height i : Nat) :
    ordered (i % 2 = 1) (node pair leaf height i) (node pair leaf height (sibling i)) =
      (node pair leaf height (2 * (i / 2)), node pair leaf height (2 * (i / 2) + 1)) := by
  unfold ordered sibling
  rcases Nat.mod_two_eq_zero_or_one i with heven | hodd
  · have hi : 2 * (i / 2) = i := by omega
    simp [heven, hi]
  · have hi : 2 * (i / 2) + 1 = i := by omega
    have hi' : 2 * (i / 2) = i - 1 := by omega
    rw [hi, hi']
    simp [hodd]

theorem node_half (height i : Nat) :
    Function.uncurry pair (ordered (i % 2 = 1) (node pair leaf height i) (node pair leaf height (sibling i))) =
      node pair leaf (height + 1) (i / 2) := by
  rw [ordered_node]
  rfl

-- The walk of the tree leads to the node above.
theorem climb_path (count height i : Nat) :
    climb pair (path pair leaf count height i) (node pair leaf height i) =
      node pair leaf (height + count) (i / 2 ^ count) := by
  induction count generalizing height i with
  | zero => simp [path, climb]
  | succ count ih =>
      have hheight : height + 1 + count = height + (count + 1) := by omega
      rw [path, climb, node_half, ih, Nat.div_div_eq_div_mul, ← pow_succ', hheight]

@[simp] theorem length_path (count height i : Nat) : (path pair leaf count height i).length = count := by
  induction count generalizing height i with
  | zero => rfl
  | succ count ih => rw [path, List.length_cons, ih]

theorem getElem?_path {count k : Nat} (hk : k < count) (height i : Nat) :
    (path pair leaf count height i)[k]? =
      some (decide (i / 2 ^ k % 2 = 1), node pair leaf (height + k) (sibling (i / 2 ^ k))) := by
  induction k generalizing count height i with
  | zero =>
      obtain ⟨count, rfl⟩ := Nat.exists_eq_succ_of_ne_zero (Nat.ne_of_gt hk)
      simp [path]
  | succ k ih =>
      obtain ⟨count, rfl⟩ := Nat.exists_eq_succ_of_ne_zero (by omega : count ≠ 0)
      have hheight : height + 1 + k = height + (k + 1) := by omega
      rw [path, List.getElem?_cons_succ, ih (Nat.lt_of_succ_lt_succ hk), Nat.div_div_eq_div_mul, ← pow_succ',
        hheight]

theorem position_path (count height i : Nat) :
    position (path pair leaf count height i) (i / 2 ^ count) = i := by
  induction count generalizing height i with
  | zero => simp [path, position]
  | succ count ih =>
      have hhalf : i / 2 ^ (count + 1) = i / 2 / 2 ^ count := by
        rw [Nat.div_div_eq_div_mul, ← pow_succ']
      rw [path, position, hhalf, ih]
      rcases Nat.mod_two_eq_zero_or_one i with heven | hodd
      · simp only [heven, zero_ne_one, decide_false, Bool.toNat_false]
        omega
      · simp only [hodd, decide_true, Bool.toNat_true]
        omega

theorem position_lt (walk : List (Bool × α)) {j m : Nat} (hj : j < 2 ^ m) :
    position walk j < 2 ^ (m + walk.length) := by
  induction walk with
  | nil => exact hj
  | cons step walk ih =>
      have hbit := step.1.toNat_le
      have hdouble : 2 ^ (m + (walk.length + 1)) = 2 * 2 ^ (m + walk.length) := by ring
      rw [position, List.length_cons, hdouble]
      omega

end Completeness

section Binding

-- Every pair that the tree of this depth hashes.
def Covers (S : Set (α × α)) (depth : Nat) : Prop :=
  ∀ height < depth, ∀ i < 2 ^ (depth - (height + 1)),
    (node pair leaf height (2 * i), node pair leaf height (2 * i + 1)) ∈ S

variable {pair leaf} {S : Set (α × α)} {depth : Nat}

-- Among the pairs of `S` hashing is injective, so a walk that ends at a node of the tree has
-- followed the tree at every level: from the top down, its current node and its sibling are the
-- two children.
theorem climb_binds (hinj : Set.InjOn (Function.uncurry pair) S) (hcovers : Covers pair leaf S depth)
    (walk : List (Bool × α)) (current : α) (hinputs : ∀ input ∈ inputs pair walk current, input ∈ S)
    {height j : Nat} (hheight : height + walk.length ≤ depth) (hj : j < 2 ^ (depth - (height + walk.length)))
    (hclimb : climb pair walk current = node pair leaf (height + walk.length) j) :
    current = node pair leaf height (position walk j) ∧
      walk = path pair leaf walk.length height (position walk j) := by
  induction walk generalizing current height with
  | nil => exact ⟨hclimb, rfl⟩
  | cons step walk ih =>
      obtain ⟨right, other⟩ := step
      rw [List.length_cons] at hheight hj hclimb
      have hlevel : height + 1 + walk.length = height + (walk.length + 1) := by omega
      obtain ⟨hparent, hwalk⟩ := ih (Function.uncurry pair (ordered right current other))
        (fun input hinput => hinputs input (List.mem_cons_of_mem _ hinput))
        (hlevel ▸ hheight) (hlevel ▸ hj) (hlevel ▸ hclimb)
      have hlt := position_lt walk hj
      have hexponent : depth - (height + (walk.length + 1)) + walk.length = depth - (height + 1) := by omega
      rw [hexponent] at hlt
      have hchildren : ordered right current other =
          (node pair leaf height (2 * position walk j), node pair leaf height (2 * position walk j + 1)) :=
        hinj (hinputs _ List.mem_cons_self) (hcovers height (by omega) _ hlt) hparent
      cases right with
      | false =>
          obtain ⟨hcurrent, hother⟩ := Prod.ext_iff.mp hchildren
          have hhalf : (2 * position walk j + 0) / 2 = position walk j := by omega
          refine ⟨hcurrent, ?_⟩
          rw [List.length_cons, position, Bool.toNat_false, path, hhalf, ← hwalk]
          simp only [ordered, Bool.false_eq_true, if_false] at hother
          simp [sibling, hother]
      | true =>
          obtain ⟨hother, hcurrent⟩ := Prod.ext_iff.mp hchildren
          have hhalf : (2 * position walk j + 1) / 2 = position walk j := by omega
          have hodd : (2 * position walk j + 1) % 2 = 1 := by omega
          refine ⟨hcurrent, ?_⟩
          rw [List.length_cons, position, Bool.toNat_true, path, hhalf, ← hwalk]
          simp only [ordered, if_true] at hother
          simp [sibling, hodd, hother]

-- Two trees that hash pairs of `S` only and have one root have the same leaves.
theorem leaf_eq_of_root_eq {leaf' : Nat → α} (hinj : Set.InjOn (Function.uncurry pair) S)
    (hcovers : Covers pair leaf S depth) (hcovers' : Covers pair leaf' S depth)
    (hroot : node pair leaf depth 0 = node pair leaf' depth 0) {i : Nat} (hi : i < 2 ^ depth) :
    leaf i = leaf' i := by
  have hnode : ∀ height ≤ depth, ∀ i < 2 ^ (depth - height),
      node pair leaf height i = node pair leaf' height i := by
    intro height hheight
    induction hrest : depth - height generalizing height with
    | zero =>
        intro i hi
        obtain rfl : height = depth := by omega
        obtain rfl : i = 0 := by omega
        exact hroot
    | succ rest ih =>
        intro i hi
        have hrest' : depth - (height + 1) = rest := by omega
        have hhalf : i / 2 < 2 ^ rest := by
          rw [pow_succ] at hi
          omega
        have hparent := ih (height + 1) (by omega) hrest' (i / 2) hhalf
        rw [← hrest'] at hhalf
        have hchildren := hinj (hcovers height (by omega) _ hhalf) (hcovers' height (by omega) _ hhalf) hparent
        obtain ⟨hleft, hright⟩ := Prod.ext_iff.mp hchildren
        rcases Nat.mod_two_eq_zero_or_one i with heven | hodd
        · have hsame : 2 * (i / 2) = i := by omega
          rwa [hsame] at hleft
        · have hsame : 2 * (i / 2) + 1 = i := by omega
          rwa [hsame] at hright
  exact hnode 0 (Nat.zero_le _) i hi

-- The tree's own walks hash pairs of the tree.
theorem inputs_path_mem (hcovers : Covers pair leaf S depth) (count : Nat) {height i : Nat}
    (hheight : height + count ≤ depth) (hi : i < 2 ^ (depth - height)) :
    ∀ input ∈ inputs pair (path pair leaf count height i) (node pair leaf height i), input ∈ S := by
  induction count generalizing height i with
  | zero => simp [path, inputs]
  | succ count ih =>
      intro input hinput
      have hdouble := size_eq_double (by omega : height < depth)
      rw [path, inputs, node_half, ordered_node] at hinput
      rcases List.mem_cons.mp hinput with rfl | hrest
      · exact hcovers height (by omega) (i / 2) (by omega)
      · exact ih (by omega) (by omega) input hrest

end Binding

section Table

-- A table of nodes, by level and position, in which each inner node belongs to its children. A path
-- that is being recomputed may be wrong from level `k` on, above the position `i` of the leaves.
def ConsistentBelow (depth k i : Nat) (table : Nat × Nat → α) : Prop :=
  ∀ height < depth, ∀ j, (height < k ∨ j ≠ i / 2 ^ (height + 1)) →
    table (height + 1, j) = pair (table (height, 2 * j)) (table (height, 2 * j + 1))

def Consistent (depth : Nat) (table : Nat × Nat → α) : Prop :=
  ∀ height < depth, ∀ j,
    table (height + 1, j) = pair (table (height, 2 * j)) (table (height, 2 * j + 1))

variable {pair} {depth k i : Nat} {table : Nat × Nat → α}

-- A consistent table holds the tree over its lowest level.
theorem node_of_consistent (h : Consistent pair depth table) {height : Nat} (hheight : height ≤ depth) (j : Nat) :
    table (height, j) = node pair (fun j => table (0, j)) height j := by
  induction height generalizing j with
  | zero => rfl
  | succ height ih =>
      have hbelow := Nat.le_of_succ_le hheight
      rw [h height hheight, node, ih hbelow, ih hbelow]

theorem consistentBelow_update_leaf (h : Consistent pair depth table) (i : Nat) (value : α) :
    ConsistentBelow pair depth 0 i (Function.update table (0, i) value) := by
  intro height hheight j hj
  have habove : (height + 1, j) ≠ (0, i) := by simp
  have hleft : (height, 2 * j) ≠ (0, i) := by
    rw [Ne, Prod.mk.injEq]
    rintro ⟨rfl, rfl⟩
    simp at hj
  have hright : (height, 2 * j + 1) ≠ (0, i) := by
    rw [Ne, Prod.mk.injEq]
    rintro ⟨rfl, rfl⟩
    simp at hj
    omega
  rw [Function.update_of_ne habove, Function.update_of_ne hleft, Function.update_of_ne hright]
  exact h height hheight j

-- One more node of the path is recomputed from its children.
theorem consistentBelow_update_node (h : ConsistentBelow pair depth k i table) :
    ConsistentBelow pair depth (k + 1) i (Function.update table (k + 1, i / 2 ^ (k + 1))
      (pair (table (k, 2 * (i / 2 ^ (k + 1)))) (table (k, 2 * (i / 2 ^ (k + 1)) + 1)))) := by
  intro height hheight j hj
  have hchild : ∀ m, m / 2 = j → (height, m) ≠ (k + 1, i / 2 ^ (k + 1)) := by
    intro m hm
    rw [Ne, Prod.mk.injEq]
    rintro ⟨rfl, rfl⟩
    rw [Nat.div_div_eq_div_mul, ← pow_succ] at hm
    rcases hj with hlt | hne
    · exact absurd hlt (Nat.lt_irrefl _)
    · exact hne hm.symm
  rw [Function.update_of_ne (hchild (2 * j) (by omega)), Function.update_of_ne (hchild (2 * j + 1) (by omega))]
  by_cases hnode : (height + 1, j) = (k + 1, i / 2 ^ (k + 1))
  · obtain ⟨hheight', rfl⟩ := Prod.ext_iff.mp hnode
    obtain rfl : height = k := Nat.succ.inj hheight'
    rw [Function.update_self]
  · rw [Function.update_of_ne hnode]
    apply h height hheight j
    by_cases hheight' : height = k
    · right
      rintro rfl
      exact hnode (by rw [hheight'])
    · omega

theorem consistent_of_consistentBelow (h : ConsistentBelow pair depth depth i table) :
    Consistent pair depth table :=
  fun height hheight j => h height hheight j (Or.inl hheight)

end Table

end HashTree
