import Cougr.Zk.Types

namespace Cougr.Zk

-- The BN254 functions of the host, on serialized points and scalars. They trap on bytes that
-- are no point of the group.
structure Bn254 where
  g1Add : BytesN 64 → BytesN 64 → Option (BytesN 64)
  g1Mul : BytesN 64 → BytesN 32 → Option (BytesN 64)
  pairingCheck : List (BytesN 64) → List (BytesN 128) → Option Bool

def bn254G1Add (host : Bn254) (p1 p2 : G1Point) : Outcome G1Point := do
  let bytes ← host.g1Add p1.bytes p2.bytes
  return { bytes }

def bn254G1Mul (host : Bn254) (point : G1Point) (scalar : Scalar) : Outcome G1Point := do
  let bytes ← host.g1Mul point.bytes scalar.bytes
  return { bytes }

def bn254PairingCheck (host : Bn254) (g1Points : List G1Point) (g2Points : List G2Point) : Outcome Bool := do
  if g1Points.length ≠ g2Points.length then throw .InvalidInput
  if g1Points.isEmpty then throw .InvalidInput
  host.pairingCheck (g1Points.map G1Point.bytes) (g2Points.map G2Point.bytes)

-- One turn of the loop over the public inputs.
def accumulate (host : Bn254) (ic : List G1Point) (vkX : G1Point) (entry : Scalar × Nat) :
    Outcome G1Point := do
  let (input, i) := entry
  let icPoint ← okOr ic[i + 1]? .InvalidVerificationKey
  let term ← bn254G1Mul host icPoint input
  bn254G1Add host vkX term

def verifyGroth16 (host : Bn254) (vk : VerificationKey) (proof : Groth16Proof)
    (publicInputs : List Scalar) : Outcome Bool := do
  if vk.ic.length ≠ publicInputs.length + 1 then throw .InvalidVerificationKey
  let first ← okOr vk.ic[0]? .InvalidVerificationKey
  let vkX ← publicInputs.zipIdx.foldlM (accumulate host vk.ic) first
  -- all points go in with their own sign
  bn254PairingCheck host [proof.a, vk.alpha, vkX, proof.c] [proof.b, vk.beta, vk.gamma, vk.delta]

end Cougr.Zk
