import Cougr.Zk.Merkle.Hash

namespace Cougr.Zk

def maxDepth : Nat := 20

structure Tree (Node : Type) where
  depth : Nat
  leafCount : Nat
  layers : List (List Node)

structure Proof (Node : Type) where
  siblings : List Node
  pathIndices : List Bool
  leaf : Node
  leafIndex : Nat

section Build

variable {Leaf Node : Type} (hash : NodeHash Leaf Node)

-- The loop that doubles `size`. Sizes are `u32`, so that the 32nd doubling traps.
def growDepth (leafCount : Nat) : (turns depth size : Nat) → Option (Nat × Nat)
  | 0, _, _ => none
  | turns + 1, depth, size =>
    if size < leafCount then
      if 2 * size < 2 ^ 32 then growDepth leafCount turns (depth + 1) (2 * size) else none
    else some (depth, size)

-- One layer from the one below, two nodes at a time; an odd node has no `current_layer[i + 1]`.
def nextLayer : List Node → Option (List Node)
  | [] => some []
  | [_] => none
  | left :: right :: rest => do
    let next ← nextLayer rest
    return hash.hashPair left right :: next

-- The layers above the current one. The loop ends on a single node; every turn halves the layer.
def layersAbove : (turns : Nat) → List Node → Option (List (List Node))
  | 0, _ => some []
  | turns + 1, current =>
    if current.length > 1 then do
      let next ← nextLayer hash current
      let above ← layersAbove turns next
      return next :: above
    else some []

namespace Tree

def fromLeaves (leaves : List Leaf) : Outcome (Tree Node) := do
  if leaves.isEmpty then throw .EmptyTree
  let leafCount := leaves.length
  let (depth, size) ← growDepth leafCount 32 0 1
  if depth > maxDepth then throw .MaxDepthExceeded
  let hashed := leaves.map hash.hashLeaf
  let bottom := hashed ++ List.replicate (size - hashed.length) hash.zero
  let above ← layersAbove hash bottom.length bottom
  return { depth, leafCount, layers := bottom :: above }

-- `self.layers[layer][index]`, out of range where that panics.
def nodeAt (self : Tree Node) (layer index : Nat) : Option Node := do
  let nodes ← self.layers[layer]?
  nodes[index]?

def root (self : Tree Node) : Option Node := do
  let last ← self.layers.getLast?
  last[0]?

-- The loop of `proof`, from one layer on.
def walk (self : Tree Node) : (turns layerIdx idx : Nat) → Option (List Node × List Bool)
  | 0, _, _ => some ([], [])
  | turns + 1, layerIdx, idx => do
    let siblingIdx := if idx % 2 = 0 then idx + 1 else idx - 1
    let sibling ← self.nodeAt layerIdx siblingIdx
    let (siblings, pathIndices) ← walk self turns (layerIdx + 1) (idx / 2)
    return (sibling :: siblings, decide (idx % 2 ≠ 0) :: pathIndices)

def proof (self : Tree Node) (leafIndex : Nat) : Outcome (Proof Node) := do
  if leafIndex ≥ self.leafCount then throw .LeafOutOfBounds
  let (siblings, pathIndices) ← self.walk self.depth 0 leafIndex
  let leaf ← self.nodeAt 0 leafIndex
  return { siblings, pathIndices, leaf, leafIndex }

end Tree

-- The loop of the verifier. A missing direction is an index out of range, one too many is ignored.
def recompute : List Node → List Bool → Node → Option Node
  | [], _, current => some current
  | _ :: _, [], _ => none
  | sibling :: siblings, right :: pathIndices, current =>
    recompute siblings pathIndices
      (if right then hash.hashPair sibling current else hash.hashPair current sibling)

def Proof.verify [DecidableEq Node] (proof : Proof Node) (expectedRoot : Node) : Option Bool := do
  let current ← recompute hash proof.siblings proof.pathIndices proof.leaf
  return current = expectedRoot

end Build

abbrev MerkleTree := Tree (BytesN 32)

abbrev MerkleProof := Proof (BytesN 32)

def MerkleTree.fromLeaves (sha256 : Bytes → BytesN 32) (leaves : List (BytesN 32)) : Outcome MerkleTree :=
  Tree.fromLeaves (sha256Hash sha256) leaves

def verifyProof (sha256 : Bytes → BytesN 32) (proof : MerkleProof) (expectedRoot : BytesN 32) : Option Bool :=
  proof.verify (sha256Hash sha256) expectedRoot

abbrev PoseidonMerkleTree := Tree U256

abbrev PoseidonMerkleProof := Proof U256

def PoseidonMerkleTree.fromLeaves (host : Poseidon2) (params : Poseidon2Params) (leaves : List U256) :
    Outcome PoseidonMerkleTree :=
  Tree.fromLeaves (poseidonHash host params) leaves

def verifyPoseidonProof (host : Poseidon2) (params : Poseidon2Params) (proof : PoseidonMerkleProof)
    (expectedRoot : U256) : Option Bool :=
  proof.verify (poseidonHash host params) expectedRoot

end Cougr.Zk
