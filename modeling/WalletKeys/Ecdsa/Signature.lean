import WalletKeys.Error
import WalletKeys.Key.Scalar

/-!
# Signatures

A signature is a pair of numbers. A signer also knows which of the points with the same first number
the nonce led to, and may record it.
-/

namespace WalletKeys

open Secp256k1

/-- Which point a signature came from: whether its second coordinate is odd, and whether its first
was no less than the group order and so was reduced. -/
structure RecoveryId where
  odd : Bool
  reduced : Bool
  deriving DecidableEq, Repr

namespace RecoveryId

/-- The number of a recovery id: the parity in the lowest bit and the reduction above it. -/
def toNat (id : RecoveryId) : Nat :=
  id.odd.toNat + 2 * id.reduced.toNat

def ofNat? (number : Nat) : Option RecoveryId :=
  if number < 4 then some ⟨number.testBit 0, number.testBit 1⟩ else none

def all : List RecoveryId :=
  [⟨false, false⟩, ⟨true, false⟩, ⟨false, true⟩, ⟨true, true⟩]

end RecoveryId

/-- The two numbers of a signature, which may be out of range, and the recovery id if it is known.
-/
structure Signature where
  r : Nat
  s : Nat
  recoveryId : Option RecoveryId
  deriving DecidableEq, Repr

namespace Signature

def inRange (signature : Signature) : Bool :=
  inScalarRange signature.r && inScalarRange signature.s

def ofNumbers (r s : Nat) : Except WalletError Signature := do
  require (inScalarRange r ∧ inScalarRange s) .signatureOutOfRange
  return ⟨r, s, none⟩

def compact (signature : Signature) : Octets :=
  Octets.ofNat 32 signature.r ++ Octets.ofNat 32 signature.s

def ofCompact (octets : Octets) : Except WalletError Signature := do
  require (octets.length = 64) (.invalidSignatureLength octets.length)
  ofNumbers (Octets.toNat (octets.take 32)) (Octets.toNat (octets.drop 32))

end Signature

end WalletKeys
