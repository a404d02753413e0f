import WalletKeys.Ecdsa.Signature
import WalletKeys.Key.Private

/-!
# Signing and verifying

A nonce leads to a point; the first number of the signature is that point's first coordinate, and
the second ties it to the message and the secret. Everything is modulo the group order.
-/

namespace WalletKeys.Ecdsa

open Secp256k1

/-- The number of the leading octets of a digest, as many bits as the group order has. -/
def digestNumber (digest : Octets) : Nat :=
  Octets.toNat digest >>> (8 * digest.length - orderBits)

def digestScalar (digest : Octets) : Nat :=
  digestNumber digest % groupOrder

/-- The signature that a nonce leads to, unless one of its numbers is zero. -/
def signatureWith? (key : PrivateKey) (digest : Octets) (nonce : Scalar) : Option Signature :=
  let point := Point.mulGenerator nonce.value
  let r := point.x % groupOrder
  let product := Modular.mul r key.secret.value groupOrder
  let s :=
    Modular.mul (Modular.inverse nonce.value groupOrder)
      (Modular.add (digestScalar digest) product groupOrder) groupOrder
  if r = 0 ∨ s = 0 then none
  else some ⟨r, s, some ⟨point.isOdd, decide (groupOrder ≤ point.x)⟩⟩

/-- The signature that a block of the random source leads to, if the block is a nonce in range and
neither number is zero. -/
def attempt? (key : PrivateKey) (digest : Octets) (block : Block 32) : Option Signature :=
  (Scalar.ofNat? block.toNat).bind (signatureWith? key digest)

/-- The signature of the first block that leads to one, and what the source still has to give. -/
def sign? (key : PrivateKey) (digest : Octets) : Draws → Option (Signature × Draws)
  | [] => none
  | block :: rest =>
      match attempt? key digest block with
      | some signature => some (signature, rest)
      | none => sign? key digest rest

/-- The signature belongs to the key and the digest. A signature is refused if the two points that
are added have the same first coordinate: either they cancel, or they are equal. -/
def verify (key : PublicKey) (digest : Octets) (signature : Signature) : Bool :=
  if signature.inRange then
    let inverse := Modular.inverse signature.s groupOrder
    let generatorPart :=
      Point.mulGenerator (Modular.mul (digestScalar digest) inverse groupOrder)
    let keyPart := key.point.mul (Modular.mul signature.r inverse groupOrder)
    if generatorPart.x = keyPart.x then false
    else
      let sum := generatorPart.add keyPart
      !sum.isInfinity && sum.x % groupOrder == signature.r
  else false

end WalletKeys.Ecdsa
