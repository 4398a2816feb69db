import Cougr.Zk.Types

namespace Cougr.Zk

-- The trees of this subsystem share their algorithms; they differ in these functions.
structure NodeHash (Leaf Node : Type) where
  hashLeaf : Leaf → Node
  hashPair : Node → Node → Node
  zero : Node

section Sha256

-- What is hashed for a leaf and for two children.
def leafInput (data : BytesN 32) : Bytes := 0x00 :: data.toList

def pairInput (left right : BytesN 32) : Bytes := 0x01 :: (left.toList ++ right.toList)

variable (sha256 : Bytes → BytesN 32)

def hashLeaf (data : BytesN 32) : BytesN 32 := sha256 (leafInput data)

def hashPair (left right : BytesN 32) : BytesN 32 := sha256 (pairInput left right)

def zeroHash : BytesN 32 := Vector.replicate 32 0

def sha256Hash : NodeHash (BytesN 32) (BytesN 32) where
  hashLeaf := hashLeaf sha256
  hashPair := hashPair sha256
  zero := zeroHash

-- A tree over two leaves, with the host's digests of the three inputs that are hashed for it.
def sampleLeaves : List (BytesN 32) := [Vector.replicate 32 1, Vector.replicate 32 2]

def sampleHashes : List (BytesN 32) :=
  [bigEndian 32 0xdcffe786ded16d283c663846ad0c4ff26558fccde36ca9d30b2ea19eade9fc0e,
    bigEndian 32 0xcba8c596120bdb69debbd923d92cba948bde7c7d06a465a1bb7d98d3116038fa]

def sampleRoot : BytesN 32 := bigEndian 32 0x3a066e0f40c6a1981ebfa60d2411625d0517ae22c2fc8c7c1784ff8a75c78565

def sampleSha256 (input : Bytes) : BytesN 32 :=
  match (sampleLeaves.map leafInput).idxOf? input with
  | some i => sampleHashes.getD i zeroHash
  | none => sampleRoot

end Sha256

section Poseidon2

abbrev U256 := BitVec 256

structure Poseidon2Params where
  field : Symbol
  t : Nat
  d : Nat
  roundsF : Nat
  roundsP : Nat
  matInternalDiagM1 : List U256
  roundConstants : List (List U256)

-- The host's permutation for the parameters it accepts. It returns the permuted state.
structure Poseidon2 where
  permutation : List U256 → Symbol → Nat → Nat → Nat → Nat → List U256 → List (List U256) → List U256
  length_permutation : ∀ input field t d roundsF roundsP diagonal constants,
    (permutation input field t d roundsF roundsP diagonal constants).length = input.length

def poseidon2Permutation (host : Poseidon2) (params : Poseidon2Params) (input : List U256) : List U256 :=
  host.permutation input params.field params.t params.d params.roundsF params.roundsP
    params.matInternalDiagM1 params.roundConstants

-- The state is padded with zeros to the width of the permutation.
def poseidon2Input (params : Poseidon2Params) (a b : U256) : List U256 :=
  a :: b :: List.replicate (params.t - 2) 0

def poseidon2Hash (host : Poseidon2) (params : Poseidon2Params) (a b : U256) : U256 :=
  (poseidon2Permutation host params (poseidon2Input params a b)).head (by
    rw [← List.length_pos_iff, poseidon2Permutation, host.length_permutation]
    exact Nat.succ_pos _)

def poseidon2HashSingle (host : Poseidon2) (params : Poseidon2Params) (input : U256) : U256 :=
  poseidon2Hash host params input 0

-- A leaf is hashed with a zero second input.
def poseidonHash (host : Poseidon2) (params : Poseidon2Params) : NodeHash U256 U256 where
  hashLeaf leaf := poseidon2Hash host params leaf 0
  hashPair := poseidon2Hash host params
  zero := 0

end Poseidon2

end Cougr.Zk
