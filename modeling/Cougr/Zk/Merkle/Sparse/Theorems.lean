import Cougr.Zk.Merkle.Sparse.Dense

namespace Cougr.Zk

section Slots

-- The value that was inserted last into a slot.
def lastInSlot {Leaf : Type} (inserts : List (BytesN 32 × Leaf)) (slot : Nat) : Option Leaf :=
  (inserts.reverse.find? fun entry => keyToIndex entry.1 = slot).map Prod.snd

variable {Leaf Node : Type} {hash : NodeHash Leaf Node}

theorem lastInSlot_concat (inserts : List (BytesN 32 × Leaf)) (key : BytesN 32) (value : Leaf) (slot : Nat) :
    lastInSlot (inserts ++ [(key, value)]) slot =
      if slot = keyToIndex key then some value else lastInSlot inserts slot := by
  rw [lastInSlot, List.reverse_append, List.reverse_singleton, List.singleton_append, List.find?_cons]
  by_cases hslot : slot = keyToIndex key
  · simp [hslot]
  · have hne : keyToIndex key ≠ slot := fun h => hslot h.symm
    simp [hslot, hne, lastInSlot]

theorem lastInSlot_eq_none_iff (inserts : List (BytesN 32 × Leaf)) (slot : Nat) :
    lastInSlot inserts slot = none ↔ ∀ entry ∈ inserts, keyToIndex entry.1 ≠ slot := by
  simp [lastInSlot]

theorem after_concat (inserts : List (BytesN 32 × Leaf)) (key : BytesN 32) (value : Leaf) :
    SparseTree.after hash (inserts ++ [(key, value)]) =
      (SparseTree.after hash inserts).bind fun tree => tree.insert hash key value := by
  simp [SparseTree.after, List.foldlM_append, Option.bind_assoc]

-- No insert fails, and the bottom level keeps what each slot got last.
theorem after_spec (inserts : List (BytesN 32 × Leaf)) : ∃ tree, SparseTree.after hash inserts = some tree ∧
    SparseTree.WellFormed hash tree ∧
    ∀ j, tree.nodes.get (0, j) = (lastInSlot inserts j).map hash.hashLeaf := by
  induction inserts using List.reverseRecOn with
  | nil =>
      obtain ⟨tree, htree, hwell, hempty⟩ := @SparseTree.wellFormed_new Leaf Node hash
      refine ⟨tree, ?_, hwell, fun j => by rw [hempty]; rfl⟩
      rw [SparseTree.after, htree]
      rfl
  | append_singleton inserts entry ih =>
      obtain ⟨tree, htree, hwell, hleaves⟩ := ih
      obtain ⟨next, hnext, hwell', hleaves'⟩ := SparseTree.insert_spec hwell entry.1 entry.2
      refine ⟨next, ?_, hwell', fun j => ?_⟩
      · rw [after_concat, htree, Option.bind_some, hnext]
      · rw [hleaves', lastInSlot_concat, hleaves]
        split_ifs <;> rfl

end Slots

section Prove

variable {sha256 : Bytes → BytesN 32} {tree : SparseMerkleTree}

theorem keyToIndex_lt (key : BytesN 32) : keyToIndex key < 2 ^ smtDepth :=
  Nat.mod_lt _ (Nat.two_pow_pos smtDepth)

theorem getLsbD_or_shiftLeft (bits : BitVec 32) {level : Nat} (hlevel : level < 32) (m : Nat) :
    (bits ||| 1#32 <<< level).getLsbD m = (bits.getLsbD m || decide (m = level)) := by
  rw [BitVec.getLsbD_or, BitVec.getLsbD_shiftLeft, BitVec.getLsbD_one]
  congr 1
  rw [Bool.eq_iff_iff]
  simp only [Bool.and_eq_true, decide_eq_true_iff, Bool.not_eq_true', decide_eq_false_iff_not]
  omega

-- A walk of the full tree over the slots.
abbrev slotPath (sha256 : Bytes → BytesN 32) (tree : SparseMerkleTree) (turns level idx : Nat) :
    List (Bool × BytesN 32) :=
  HashTree.path (hashPair sha256) (fun j => tree.table (sha256Hash sha256) (0, j)) turns level idx

-- The loop collects the siblings on the path, and one bit for each node that is a right child.
theorem proveLoop_spec (h : SparseTree.WellFormed (sha256Hash sha256) tree) (turns level idx : Nat)
    (pathBits : BitVec 32) (hlevel : level + turns ≤ smtDepth) :
    ∃ bits, tree.proveLoop turns level idx pathBits =
        some ((slotPath sha256 tree turns level idx).map Prod.snd, bits) ∧
      ∀ m, bits.getLsbD m = (pathBits.getLsbD m ||
        decide (level ≤ m ∧ m < level + turns ∧ idx / 2 ^ (m - level) % 2 = 1)) := by
  induction turns generalizing level idx pathBits with
  | zero =>
      refine ⟨pathBits, rfl, fun m => ?_⟩
      have hfalse : ¬(level ≤ m ∧ m < level + 0 ∧ idx / 2 ^ (m - level) % 2 = 1) := by omega
      rw [decide_eq_false hfalse, Bool.or_false]
  | succ turns ih =>
      have hnode := HashTree.node_of_consistent h.consistent (by omega : level ≤ smtDepth) (HashTree.sibling idx)
      have hsibling := SparseTree.getNode_eq h.defaults (by omega : level ≤ smtDepth) (HashTree.sibling idx)
      rw [hnode] at hsibling
      obtain ⟨bits, hloop, hbits⟩ := ih (level + 1) (idx / 2)
        (if idx % 2 ≠ 0 then pathBits ||| 1#32 <<< level else pathBits) (by omega)
      refine ⟨bits, ?_, fun m => ?_⟩
      · unfold HashTree.sibling at hsibling
        simp only [SparseMerkleTree.proveLoop, hsibling, hloop, Option.bind_eq_bind, Option.bind_some]
        rfl
      · have hbit : (if idx % 2 ≠ 0 then pathBits ||| 1#32 <<< level else pathBits).getLsbD m =
            (pathBits.getLsbD m || decide (m = level ∧ idx % 2 = 1)) := by
          have hwidth : level < 32 := by
            have hdepth : smtDepth = 16 := rfl
            omega
          rcases Nat.mod_two_eq_zero_or_one idx with heven | hodd
          · simp [heven]
          · rw [if_pos (by omega), getLsbD_or_shiftLeft pathBits hwidth]
            simp [hodd]
        rw [hbits, hbit, Bool.or_assoc, ← Bool.decide_or]
        congr 2
        rw [eq_iff_iff]
        rcases Nat.lt_trichotomy m level with hlt | rfl | hgt
        · omega
        · simp
        · obtain ⟨n, rfl⟩ := Nat.exists_eq_add_of_lt hgt
          have hhigh : level + n + 1 - level = n + 1 := by omega
          have hlow : level + n + 1 - (level + 1) = n := by omega
          rw [hhigh, hlow, Nat.div_div_eq_div_mul, ← pow_succ']
          omega

-- The walk that the packed proof describes is the walk of the full tree.
theorem prove_spec (h : SparseTree.WellFormed (sha256Hash sha256) tree) (key : BytesN 32) :
    ∃ proof, tree.prove key = some proof ∧ proof.leaf = tree.table (sha256Hash sha256) (0, keyToIndex key) ∧
      verifyInclusion sha256 proof tree.root = some (.ok true) := by
  have hleaf := SparseTree.getNode_eq h.defaults (Nat.zero_le smtDepth) (keyToIndex key)
  obtain ⟨bits, hloop, hbits⟩ := proveLoop_spec h smtDepth 0 (keyToIndex key) 0 (Nat.le_of_eq (Nat.zero_add _))
  refine ⟨⟨(slotPath sha256 tree smtDepth 0 (keyToIndex key)).map Prod.snd, bits,
    tree.table (sha256Hash sha256) (0, keyToIndex key), keyToIndex key, smtDepth⟩, ?_, rfl, ?_⟩
  · rw [SparseMerkleTree.prove, hleaf, Option.bind_eq_bind, Option.bind_some, hloop]
    rfl
  · apply (verifyInclusion_eq_true_iff sha256 _ _).mpr
    refine ⟨by simp, (by decide : smtDepth ≤ 32), ?_⟩
    have hwalk : OnChainMerkleProof.walk ⟨(slotPath sha256 tree smtDepth 0 (keyToIndex key)).map Prod.snd, bits,
          tree.table (sha256Hash sha256) (0, keyToIndex key), keyToIndex key, smtDepth⟩ =
        slotPath sha256 tree smtDepth 0 (keyToIndex key) := by
      apply List.ext_getElem?
      intro k
      rw [OnChainMerkleProof.walk, List.getElem?_mapIdx, List.getElem?_map]
      rcases Nat.lt_or_ge k smtDepth with hk | hk
      · have hbit : bits.getLsbD k = decide (keyToIndex key / 2 ^ k % 2 = 1) := by
          rw [hbits]
          simp [hk]
        rw [HashTree.getElem?_path _ _ hk, Option.map_some, Option.map_some, hbit]
      · rw [List.getElem?_eq_none (by simpa using hk)]
        rfl
    have hclimb := HashTree.climb_path (hashPair sha256)
        (fun j => tree.table (sha256Hash sha256) (0, j)) smtDepth 0
      (keyToIndex key)
    have hnode := HashTree.node_of_consistent h.consistent (Nat.le_refl smtDepth) 0
    rw [Nat.div_eq_of_lt (keyToIndex_lt key), Nat.zero_add] at hclimb
    rw [hwalk, h.root, hnode]
    exact hclimb

end Prove

section Map

-- The leaf hash that a slot got last, zeros if it got none.
def slotLeaf (sha256 : Bytes → BytesN 32) (inserts : List (BytesN 32 × BytesN 32)) (slot : Nat) : BytesN 32 :=
  ((lastInSlot inserts slot).map (hashLeaf sha256)).getD zeroHash

-- After any inserts every inner node, cached or defaulted, is the hash of its children, the root is
-- the root of the full tree over the slots, and each key has an accepted proof of its slot.
theorem sparse_eq_dense (sha256 : Bytes → BytesN 32) (inserts : List (BytesN 32 × BytesN 32)) :
    ∃ tree, SparseMerkleTree.after sha256 inserts = some tree ∧
      (∀ level < smtDepth, ∀ i, ∃ left right, tree.getNode level (2 * i) = some left ∧
        tree.getNode level (2 * i + 1) = some right ∧
        tree.getNode (level + 1) i = some (hashPair sha256 left right)) ∧
      (∀ i, tree.getNode 0 i = some (slotLeaf sha256 inserts i)) ∧
      tree.root = HashTree.node (hashPair sha256) (slotLeaf sha256 inserts) smtDepth 0 ∧
      ∀ key, ∃ proof, tree.prove key = some proof ∧ proof.leaf = slotLeaf sha256 inserts (keyToIndex key) ∧
        verifyInclusion sha256 proof tree.root = some (.ok true) := by
  obtain ⟨tree, htree, hwell, hleaves⟩ := @after_spec _ _ (sha256Hash sha256) inserts
  have hslot : ∀ i, tree.table (sha256Hash sha256) (0, i) = slotLeaf sha256 inserts i := by
    intro i
    rw [SparseTree.table, hleaves]
    rfl
  have hslots : (fun i => tree.table (sha256Hash sha256) (0, i)) = slotLeaf sha256 inserts := funext hslot
  refine ⟨tree, htree, fun level hlevel i => ?_, fun i => ?_, ?_, fun key => ?_⟩
  · have hleft := SparseTree.getNode_eq hwell.defaults (Nat.le_of_lt hlevel) (2 * i)
    have hright := SparseTree.getNode_eq hwell.defaults (Nat.le_of_lt hlevel) (2 * i + 1)
    have hparent := SparseTree.getNode_eq hwell.defaults (Nat.succ_le_of_lt hlevel) i
    rw [hwell.consistent level hlevel i] at hparent
    exact ⟨_, _, hleft, hright, hparent⟩
  · rw [SparseTree.getNode_eq hwell.defaults (Nat.zero_le smtDepth), hslot]
  · rw [hwell.root, HashTree.node_of_consistent hwell.consistent (Nat.le_refl smtDepth), hslots]
    rfl
  · obtain ⟨proof, hproof, hleaf, haccepted⟩ := prove_spec hwell key
    exact ⟨proof, hproof, hleaf.trans (hslot _), haccepted⟩

-- The slot of a key is given by its first two bytes.
theorem keyToIndex_eq_iff (key key' : BytesN 32) :
    keyToIndex key = keyToIndex key' ↔ slotBytes key = slotBytes key' := by
  have hvalue : ∀ key : BytesN 32, keyToIndex key = (slotBytes key).2.toNat * 256 + (slotBytes key).1.toNat := by
    intro key
    have hlow := key[0].toNat_lt
    have hhigh := key[1].toNat_lt
    rw [keyToIndex, Nat.lor_comm, ← Nat.shiftLeft_add_eq_or_of_lt hlow, Nat.shiftLeft_eq, Nat.one_shiftLeft,
      Nat.mod_eq_of_lt]
    · rfl
    have hdepth : 2 ^ smtDepth = 65536 := rfl
    omega
  have hlow := (slotBytes key).1.toNat_lt
  have hlow' := (slotBytes key').1.toNat_lt
  rw [hvalue, hvalue, Prod.ext_iff, ← UInt8.toNat_inj, ← UInt8.toNat_inj]
  omega

-- A map from slots to leaf hashes: keys with the same first two bytes share one entry.
theorem sparse_slot_map (sha256 : Bytes → BytesN 32) (inserts : List (BytesN 32 × BytesN 32))
    (key value key' : BytesN 32) :
    ∃ tree next, SparseMerkleTree.after sha256 inserts = some tree ∧
      SparseMerkleTree.insert sha256 tree key value = some next ∧
      next.get key = some (hashLeaf sha256 value) ∧
      (slotBytes key ≠ slotBytes key' → next.get key' = tree.get key') ∧
      (slotBytes key = slotBytes key' → next.get key' = next.get key) ∧
      (tree.get key' = none ↔ ∀ entry ∈ inserts, slotBytes entry.1 ≠ slotBytes key') := by
  obtain ⟨tree, htree, hwell, hleaves⟩ := @after_spec _ _ (sha256Hash sha256) inserts
  obtain ⟨next, hnext, _, hleaves'⟩ := SparseTree.insert_spec hwell key value
  refine ⟨tree, next, htree, hnext, ?_, fun hother => ?_, fun hsame => ?_, ?_⟩
  · rw [SparseTree.get, hleaves', if_pos rfl]
    rfl
  · rw [Ne, ← keyToIndex_eq_iff] at hother
    rw [SparseTree.get, SparseTree.get, hleaves', if_neg fun h => hother h.symm]
  · rw [← keyToIndex_eq_iff] at hsame
    rw [SparseTree.get, SparseTree.get, hsame]
  · rw [SparseTree.get, hleaves, Option.map_eq_none_iff, lastInSlot_eq_none_iff]
    simp only [Ne, ← keyToIndex_eq_iff]

def sampleKey₁ : BytesN 32 := Vector.replicate 32 0

def sampleKey₂ : BytesN 32 := sampleKey₁.set 2 1

-- One insert gives a value to a key that was never inserted, and reads back as a hash.
theorem insert_reaches_other_key : ∃ tree,
    SparseMerkleTree.after sampleSha256 [(sampleKey₁, Vector.replicate 32 1)] = some tree ∧
      sampleKey₂ ≠ sampleKey₁ ∧ tree.get sampleKey₂ ≠ none ∧
      tree.get sampleKey₁ ≠ some (Vector.replicate 32 1) := by
  obtain ⟨tree, htree, _, hleaves⟩ :=
    @after_spec _ _ (sha256Hash sampleSha256) [(sampleKey₁, Vector.replicate 32 1)]
  refine ⟨tree, htree, by decide, ?_, ?_⟩
  · rw [SparseTree.get, hleaves]
    decide
  · rw [SparseTree.get, hleaves]
    decide

end Map

end Cougr.Zk
