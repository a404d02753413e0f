import WalletKeys.Ecdsa.Sign

/-!
# Recovering the key of a signature

The recovery id tells which point the nonce led to. From that point, the signature and the digest
the public key follows, without a key to verify against.
-/

namespace WalletKeys.Ecdsa

open Secp256k1

/-- The point that a nonce led to, if the signature and the id admit one of the order of the
group. -/
def noncePoint (id : RecoveryId) (signature : Signature) : Except WalletError Point := do
  let x := if id.reduced then signature.r + groupOrder else signature.r
  let y ← demand (Coordinate.solve? x) .noRecovery
  let point ← (Point.ofCoordinates x (Coordinate.withParity id.odd y)).mapError WalletError.curve
  require point.hasGroupOrder .noRecovery
  return point

/-- The point of the key that signed the digest with the nonce of the given point. -/
def keyPoint (point : Point) (signature : Signature) (digest : Octets) : Point :=
  let inverse := Modular.inverse signature.r groupOrder
  let opposite := Modular.neg (digestScalar digest) groupOrder
  (Point.mulGenerator (Modular.mul opposite inverse groupOrder)).add
    (point.mul (Modular.mul signature.s inverse groupOrder))

/-- The key, in the short form, that signed a digest. -/
def recover (id : RecoveryId) (signature : Signature) (digest : Octets) :
    Except WalletError PublicKey := do
  require signature.inRange .signatureOutOfRange
  let point ← noncePoint id signature
  let key := keyPoint point signature digest
  require (!key.isInfinity) .noRecovery
  PublicKey.ofPoint key true

/-- The key that signed a digest, by the number of the recovery id. -/
def recoverNumbered (id : UInt8) (signature : Signature) (digest : Octets) :
    Except WalletError PublicKey := do
  let id ← demand (RecoveryId.ofNat? id.toNat) (.invalidRecoveryId id)
  recover id signature digest

end WalletKeys.Ecdsa
