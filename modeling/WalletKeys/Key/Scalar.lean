import WalletKeys.Octets
import WalletKeys.Secp256k1.Field

/-!
# Secret scalars

Secrets and nonces are numbers from one to the group order less one. A random source is the list of
the blocks that it hands out, and a scalar is drawn by taking the first block in range.
-/

namespace WalletKeys

open Secp256k1

/-- A number from one to the group order less one. -/
structure Scalar where
  value : Nat
  positive : 0 < value
  below : value < groupOrder
  deriving DecidableEq, Repr

def inScalarRange (number : Nat) : Bool :=
  decide (0 < number) && decide (number < groupOrder)

def Scalar.ofNat? (number : Nat) : Option Scalar :=
  if h : 0 < number ∧ number < groupOrder then some ⟨number, h.1, h.2⟩ else none

/-- What a random source hands out, block after block. -/
abbrev Draws := List (Block 32)

/-- The first scalar that a source draws, and what it still has to give. -/
def Scalar.draw? : Draws → Option (Scalar × Draws)
  | [] => none
  | block :: rest =>
      match Scalar.ofNat? block.toNat with
      | some scalar => some (scalar, rest)
      | none => Scalar.draw? rest

end WalletKeys
