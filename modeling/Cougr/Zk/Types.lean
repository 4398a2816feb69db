import Cougr.Soroban

namespace Cougr.Zk

inductive ZKError where
  | InvalidProof
  | InvalidPoint
  | InvalidScalar
  | VerificationFailed
  | InvalidInput
  | InvalidVerificationKey
  | CircuitMismatch
  | InvalidPublicInput
  | EmptyTree
  | LeafOutOfBounds
  | InvalidProofLength
  | MerkleVerificationFailed
  | MaxDepthExceeded
  | InvalidLeaf
  deriving DecidableEq

-- A call that answers with a `Result`, or traps.
abbrev Outcome := ExceptT ZKError Option

-- `Option::ok_or`, followed by `?`.
def okOr {α : Type} (value : Option α) (error : ZKError) : Outcome α :=
  match value with
  | some value => pure value
  | none => throw error

-- A step that can only trap goes on with its value.
@[simp] theorem Outcome.some_bind {α β : Type} (value : α) (next : α → Outcome β) :
    ((liftM (some value) : Outcome α) >>= next) = next value := rfl

theorem Outcome.bind_eq_ok_iff {α β : Type} (outcome : Outcome α) (next : α → Outcome β) (result : β) :
    (outcome >>= next) = some (.ok result) ↔ ∃ value, outcome = some (.ok value) ∧
    next value = some (.ok result) := by
  match outcome with
  | none => exact iff_of_false nofun nofun
  | some (.error _) => exact iff_of_false nofun nofun
  | some (.ok value) =>
      refine ⟨fun hnext => ⟨value, rfl, hnext⟩, ?_⟩
      rintro ⟨_, hsame, hnext⟩
      cases hsame
      exact hnext

-- `input[start..start + slice.len()].copy_from_slice(slice)`
def copyFromSlice (input : Bytes) (start : Nat) (slice : Bytes) : Bytes :=
  input.take start ++ slice ++ input.drop (start + slice.length)

def bigEndian (width value : Nat) : BytesN width :=
  Vector.ofFn fun i => UInt8.ofNat (value / 256 ^ (width - 1 - i.val))

structure G1Point where
  bytes : BytesN 64

structure G2Point where
  bytes : BytesN 128

structure Scalar where
  bytes : BytesN 32

structure Groth16Proof where
  a : G1Point
  b : G2Point
  c : G1Point

structure VerificationKey where
  alpha : G1Point
  beta : G2Point
  gamma : G2Point
  delta : G2Point
  ic : List G1Point

end Cougr.Zk
