import Cougr.Zk.Merkle.Proof

namespace Cougr.Zk

def smtDepth : Nat := 16

-- The nodes are kept under these pairs; their order is found once.
instance instTransOrdSlot : Std.TransOrd (Nat × Nat) := inferInstance

structure SparseTree (Node : Type) where
  root : Node
  nodes : Map (Nat × Nat) Node
  defaults : List Node

-- The lower 16 bits of the key.
def keyToIndex (key : BytesN 32) : Nat :=
  (key[0].toNat ||| key[1].toNat <<< 8) % (1 <<< smtDepth)

-- The bytes of a key that its slot depends on.
def slotBytes (key : BytesN 32) : UInt8 × UInt8 := (key[0], key[1])

namespace SparseTree

variable {Leaf Node : Type} (hash : NodeHash Leaf Node)

-- One more level: its default is the hash of two defaults of the level below.
def pushDefault (defaults : List Node) : Option (List Node) := do
  let prev ← defaults.getLast?
  return defaults ++ [hash.hashPair prev prev]

def precomputeDefaults : Option (List Node) :=
  (List.range smtDepth).foldlM (fun defaults _ => pushDefault hash defaults) [hash.zero]

-- `none` where the source indexes past the defaults.
def new : Option (SparseTree Node) := do
  let defaults ← precomputeDefaults hash
  let root ← defaults[smtDepth]?
  return { root, nodes := Map.new, defaults }

def getNode (self : SparseTree Node) (level index : Nat) : Option Node := do
  let default ← self.defaults[level]?
  return (self.nodes.get (level, index)).getD default

-- The loop that recomputes the path from one level on.
def recomputePath : (turns level idx : Nat) → SparseTree Node → Option (SparseTree Node)
  | 0, _, _, self => some self
  | turns + 1, level, idx, self => do
    let siblingIdx := if idx % 2 = 0 then idx + 1 else idx - 1
    let leftIdx := if idx % 2 = 0 then idx else siblingIdx
    let rightIdx := if idx % 2 = 0 then siblingIdx else idx
    let left ← self.getNode level leftIdx
    let right ← self.getNode level rightIdx
    let parent := hash.hashPair left right
    recomputePath turns (level + 1) (idx / 2)
      { self with nodes := self.nodes.set (level + 1, idx / 2) parent }

-- The source answers `Ok(())` in every case.
def insert (self : SparseTree Node) (key : BytesN 32) (value : Leaf) : Option (SparseTree Node) := do
  let leafIndex := keyToIndex key
  let self := { self with nodes := self.nodes.set (0, leafIndex) (hash.hashLeaf value) }
  let self ← recomputePath hash smtDepth 0 leafIndex self
  let root ← self.getNode smtDepth 0
  return { self with root }

def get (self : SparseTree Node) (key : BytesN 32) : Option Node :=
  self.nodes.get (0, keyToIndex key)

-- The tree after some inserts.
def after (inserts : List (BytesN 32 × Leaf)) : Option (SparseTree Node) := do
  let self ← new hash
  inserts.foldlM (fun self entry => self.insert hash entry.1 entry.2) self

end SparseTree

abbrev SparseMerkleTree := SparseTree (BytesN 32)

abbrev PoseidonSparseMerkleTree := SparseTree U256

namespace SparseMerkleTree

def new (sha256 : Bytes → BytesN 32) : Option SparseMerkleTree := SparseTree.new (sha256Hash sha256)

def insert (sha256 : Bytes → BytesN 32) (self : SparseMerkleTree) (key value : BytesN 32) :
    Option SparseMerkleTree :=
  SparseTree.insert (sha256Hash sha256) self key value

def after (sha256 : Bytes → BytesN 32) (inserts : List (BytesN 32 × BytesN 32)) : Option SparseMerkleTree :=
  SparseTree.after (sha256Hash sha256) inserts

-- The loop of `prove`, from one level on.
def proveLoop (self : SparseMerkleTree) :
    (turns level idx : Nat) → BitVec 32 → Option (List (BytesN 32) × BitVec 32)
  | 0, _, _, pathBits => some ([], pathBits)
  | turns + 1, level, idx, pathBits => do
    let siblingIdx := if idx % 2 = 0 then idx + 1 else idx - 1
    let sibling ← self.getNode level siblingIdx
    let pathBits := if idx % 2 ≠ 0 then pathBits ||| 1#32 <<< level else pathBits
    let (siblings, pathBits) ← proveLoop self turns (level + 1) (idx / 2) pathBits
    return (sibling :: siblings, pathBits)

def prove (self : SparseMerkleTree) (key : BytesN 32) : Option OnChainMerkleProof := do
  let leafIndex := keyToIndex key
  let leaf ← self.getNode 0 leafIndex
  let (siblings, pathBits) ← self.proveLoop smtDepth 0 leafIndex 0
  return { siblings, pathBits, leaf, leafIndex, depth := smtDepth }

end SparseMerkleTree

namespace PoseidonSparseMerkleTree

def new (host : Poseidon2) (params : Poseidon2Params) : Option PoseidonSparseMerkleTree :=
  SparseTree.new (poseidonHash host params)

def insert (host : Poseidon2) (params : Poseidon2Params) (self : PoseidonSparseMerkleTree) (key : BytesN 32)
    (value : U256) : Option PoseidonSparseMerkleTree :=
  SparseTree.insert (poseidonHash host params) self key value

end PoseidonSparseMerkleTree

end Cougr.Zk
