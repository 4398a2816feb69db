import Cougr.Zk.Merkle.Sparse.Theorems
import Cougr.Zk.Merkle.OnChain

namespace Cougr.Zk

variable {sha256 : Bytes → BytesN 32}

section Inputs

abbrev slotNode (sha256 : Bytes → BytesN 32) (inserts : List (BytesN 32 × BytesN 32)) : Nat → Nat → BytesN 32 :=
  HashTree.node (hashPair sha256) (slotLeaf sha256 inserts)

-- What is hashed for the full tree over the slots: the inserted values, and every two children.
def slotInputs (sha256 : Bytes → BytesN 32) (inserts : List (BytesN 32 × BytesN 32)) : Set Bytes :=
  {input | (∃ entry ∈ inserts, input = leafInput entry.2) ∨
    ∃ height < smtDepth, ∃ i < 2 ^ (smtDepth - (height + 1)),
      input = pairInput (slotNode sha256 inserts height (2 * i)) (slotNode sha256 inserts height (2 * i + 1))}

-- Two inputs have one digest, or one has the digest that stands for an empty slot.
def Breaks (sha256 : Bytes → BytesN 32) (inputs : Set Bytes) : Prop :=
  (∃ first ∈ inputs, ∃ second ∈ inputs, first ≠ second ∧ sha256 first = sha256 second) ∨
    ∃ input ∈ inputs, sha256 input = zeroHash

variable {inputs : Set Bytes}

theorem eq_of_not_breaks (hsound : ¬Breaks sha256 inputs) {first second : Bytes} (hfirst : first ∈ inputs)
    (hsecond : second ∈ inputs) (h : sha256 first = sha256 second) : first = second := by
  by_contra hne
  exact hsound (Or.inl ⟨first, hfirst, second, hsecond, hne, h⟩)

theorem injOn_pairs (hsound : ¬Breaks sha256 inputs) :
    Set.InjOn (Function.uncurry (hashPair sha256)) {pair | pairInput pair.1 pair.2 ∈ inputs} := by
  intro first hfirst second hsecond h
  obtain ⟨hleft, hright⟩ := pairInput_injective (eq_of_not_breaks hsound hfirst hsecond h)
  exact Prod.ext hleft hright

theorem covers_slots {inserts : List (BytesN 32 × BytesN 32)} (hinputs : slotInputs sha256 inserts ⊆ inputs) :
    HashTree.Covers (hashPair sha256) (slotLeaf sha256 inserts)
    {pair | pairInput pair.1 pair.2 ∈ inputs} smtDepth :=
  fun height hheight i hi => hinputs (Or.inr ⟨height, hheight, i, hi, rfl⟩)

end Inputs

section Slots

variable {inserts : List (BytesN 32 × BytesN 32)} {inputs : Set Bytes}

theorem mem_of_lastInSlot {slot : Nat} {value : BytesN 32} (h : lastInSlot inserts slot = some value) :
    ∃ entry ∈ inserts, entry.2 = value := by
  obtain ⟨entry, hfind, rfl⟩ := Option.map_eq_some_iff.mp h
  exact ⟨entry, List.mem_reverse.mp (List.mem_of_find?_eq_some hfind), rfl⟩

theorem leafInput_mem {slot : Nat} {value : BytesN 32} (hinputs : slotInputs sha256 inserts ⊆ inputs)
    (h : lastInSlot inserts slot = some value) : leafInput value ∈ inputs := by
  obtain ⟨entry, hentry, rfl⟩ := mem_of_lastInSlot h
  exact hinputs (Or.inl ⟨entry, hentry, rfl⟩)

-- A leaf tells what is in its slot.
theorem slotLeaf_eq_hashLeaf (hsound : ¬Breaks sha256 inputs) (hinputs : slotInputs sha256 inserts ⊆ inputs)
    {slot : Nat} {value : BytesN 32} (hvalue : leafInput value ∈ inputs)
    (h : slotLeaf sha256 inserts slot = hashLeaf sha256 value) : lastInSlot inserts slot = some value := by
  unfold slotLeaf at h
  cases hlast : lastInSlot inserts slot with
  | none =>
      rw [hlast] at h
      exact absurd (Or.inr ⟨_, hvalue, h.symm⟩) hsound
  | some last =>
      rw [hlast] at h
      rw [leafInput_injective (eq_of_not_breaks hsound (leafInput_mem hinputs hlast) hvalue h)]

theorem slotLeaf_eq_zeroHash (hsound : ¬Breaks sha256 inputs) (hinputs : slotInputs sha256 inserts ⊆ inputs)
    {slot : Nat} (h : slotLeaf sha256 inserts slot = zeroHash) : lastInSlot inserts slot = none := by
  unfold slotLeaf at h
  cases hlast : lastInSlot inserts slot with
  | none => rfl
  | some last =>
      rw [hlast] at h
      exact absurd (Or.inr ⟨_, leafInput_mem hinputs hlast, h⟩) hsound

theorem lastInSlot_eq_none_of_le {slot : Nat} (hslot : 2 ^ smtDepth ≤ slot) : lastInSlot inserts slot = none := by
  rw [lastInSlot_eq_none_iff]
  intro entry _ heq
  exact absurd (keyToIndex_lt entry.1) (by omega)

theorem exists_root (sha256 : Bytes → BytesN 32) (inserts : List (BytesN 32 × BytesN 32)) :
    ∃ tree, SparseMerkleTree.after sha256 inserts = some tree ∧
    tree.root = slotNode sha256 inserts smtDepth 0 := by
  obtain ⟨tree, htree, hwell, hleaves⟩ := @after_spec _ _ (sha256Hash sha256) inserts
  have hslots : (fun i => tree.table (sha256Hash sha256) (0, i)) = slotLeaf sha256 inserts := by
    funext i
    rw [SparseTree.table, hleaves]
    rfl
  refine ⟨tree, htree, ?_⟩
  rw [hwell.root, HashTree.node_of_consistent hwell.consistent (Nat.le_refl smtDepth), hslots]
  rfl

end Slots

-- The root depends on what the slots hold only, not on the order of the inserts; and it gives away any
-- difference between the slots, or the hash is broken on what was hashed.
theorem sparse_root_commits (sha256 : Bytes → BytesN 32) (inserts inserts' : List (BytesN 32 × BytesN 32)) :
    ∃ tree tree', SparseMerkleTree.after sha256 inserts = some tree ∧
      SparseMerkleTree.after sha256 inserts' = some tree' ∧
      ((∀ slot, lastInSlot inserts slot = lastInSlot inserts' slot) → tree.root = tree'.root) ∧
      (tree.root = tree'.root → (∀ slot, lastInSlot inserts slot = lastInSlot inserts' slot) ∨
        Breaks sha256 (slotInputs sha256 inserts ∪ slotInputs sha256 inserts')) := by
  obtain ⟨tree, htree, hroot⟩ := exists_root sha256 inserts
  obtain ⟨tree', htree', hroot'⟩ := exists_root sha256 inserts'
  refine ⟨tree, tree', htree, htree', fun hslots => ?_, fun hsame => ?_⟩
  · have hleaves : slotLeaf sha256 inserts = slotLeaf sha256 inserts' := by
      funext slot
      rw [slotLeaf, slotLeaf, hslots]
    rw [hroot, hroot', slotNode, hleaves]
  · by_cases hsound : Breaks sha256 (slotInputs sha256 inserts ∪ slotInputs sha256 inserts')
    · exact Or.inr hsound
    refine Or.inl fun slot => ?_
    have hinputs := Set.subset_union_left (s := slotInputs sha256 inserts) (t := slotInputs sha256 inserts')
    have hinputs' := Set.subset_union_right (s := slotInputs sha256 inserts) (t := slotInputs sha256 inserts')
    rcases Nat.lt_or_ge slot (2 ^ smtDepth) with hslot | hslot
    · rw [hroot, hroot'] at hsame
      have hleaf := HashTree.leaf_eq_of_root_eq (injOn_pairs hsound) (covers_slots hinputs)
          (covers_slots hinputs')
        hsame hslot
      cases hlast : lastInSlot inserts' slot with
      | none =>
          rw [slotLeaf, slotLeaf, hlast] at hleaf
          exact slotLeaf_eq_zeroHash hsound hinputs hleaf
      | some value =>
          rw [slotLeaf, slotLeaf, hlast] at hleaf
          exact slotLeaf_eq_hashLeaf hsound hinputs (leafInput_mem hinputs' hlast) hleaf
    · rw [lastInSlot_eq_none_of_le hslot, lastInSlot_eq_none_of_le hslot]

theorem leaf_eq_slotLeaf {inserts : List (BytesN 32 × BytesN 32)} {inputs : Set Bytes}
    (hsound : ¬Breaks sha256 inputs)
    (hinputs : slotInputs sha256 inserts ⊆ inputs) {proof : OnChainMerkleProof}
    (hwalk : ∀ input ∈ walkInputs sha256 proof.walk proof.leaf, input ∈ inputs)
    (hlength : proof.siblings.length = smtDepth)
    (hclimb : HashTree.climb (hashPair sha256) proof.walk proof.leaf = slotNode sha256 inserts smtDepth 0) :
    proof.leaf = slotLeaf sha256 inserts (proof.pathBits.toNat % 2 ^ smtDepth) := by
  have hdepth : 0 + proof.walk.length = smtDepth := by rw [Nat.zero_add, proof.length_walk, hlength]
  have hbound : 0 < 2 ^ (smtDepth - (0 + proof.walk.length)) := Nat.two_pow_pos _
  have hpairs : ∀ input ∈ HashTree.inputs (hashPair sha256) proof.walk proof.leaf,
      input ∈ {pair | pairInput pair.1 pair.2 ∈ inputs} :=
    fun _ hinput => hwalk _ (List.mem_map_of_mem hinput)
  have hnode := HashTree.climb_binds (injOn_pairs hsound) (covers_slots hinputs) proof.walk proof.leaf hpairs
    (Nat.le_of_eq hdepth) hbound (by rw [hdepth]; exact hclimb)
  rw [hnode.1, position_walk, hlength]
  rfl

-- An accepted proof of full depth shows what is in the slot that its direction bits spell, and that nothing
-- is there when it starts at zeros; or the hash is broken on what was hashed.
theorem sparse_proof_binds (sha256 : Bytes → BytesN 32) (inserts : List (BytesN 32 × BytesN 32)) :
    ∃ tree, SparseMerkleTree.after sha256 inserts = some tree ∧ ∀ proof : OnChainMerkleProof,
      proof.depth = smtDepth → verifyInclusion sha256 proof tree.root = some (.ok true) →
      (∀ value, proof.leaf = hashLeaf sha256 value →
        lastInSlot inserts (proof.pathBits.toNat % 2 ^ smtDepth) = some value ∨
          Breaks sha256 (slotInputs sha256 inserts ∪
            {input | input = leafInput value ∨ input ∈ walkInputs sha256 proof.walk proof.leaf})) ∧
      (proof.leaf = zeroHash → lastInSlot inserts (proof.pathBits.toNat % 2 ^ smtDepth) = none ∨
        Breaks sha256 (slotInputs sha256 inserts ∪
          {input | input ∈ walkInputs sha256 proof.walk proof.leaf})) := by
  obtain ⟨tree, htree, hroot⟩ := exists_root sha256 inserts
  refine ⟨tree, htree, fun proof hdepth haccepted => ?_⟩
  obtain ⟨hlength, -, hclimb⟩ := (verifyInclusion_eq_true_iff sha256 proof _).mp haccepted
  rw [hroot] at hclimb
  constructor
  · intro value hvalue
    by_cases hsound : Breaks sha256 (slotInputs sha256 inserts ∪
        {input | input = leafInput value ∨ input ∈ walkInputs sha256 proof.walk proof.leaf})
    · exact Or.inr hsound
    refine Or.inl (slotLeaf_eq_hashLeaf hsound Set.subset_union_left (Or.inr (Or.inl rfl)) ?_)
    rw [← hvalue]
    exact (leaf_eq_slotLeaf hsound Set.subset_union_left (fun _ hinput => Or.inr (Or.inr hinput))
      (hlength.trans hdepth) hclimb).symm
  · intro hzero
    by_cases hsound : Breaks sha256 (slotInputs sha256 inserts ∪
        {input | input ∈ walkInputs sha256 proof.walk proof.leaf})
    · exact Or.inr hsound
    refine Or.inl (slotLeaf_eq_zeroHash hsound Set.subset_union_left ?_)
    rw [← hzero]
    exact (leaf_eq_slotLeaf hsound Set.subset_union_left (fun _ hinput => Or.inr hinput)
      (hlength.trans hdepth) hclimb).symm

end Cougr.Zk
