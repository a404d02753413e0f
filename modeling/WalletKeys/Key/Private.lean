import WalletKeys.Key.Public
import WalletKeys.Key.Scalar

/-!
# Private keys

A private key is a secret scalar. Its public point, the multiple of the generator by the secret, is
kept beside it since it costs a multiplication.
-/

namespace WalletKeys

open Secp256k1

/-- A secret, its public point and the form in which the point is written. -/
structure PrivateKey where
  secret : Scalar
  point : Point
  compressed : Bool
  point_eq : point = Point.mulGenerator secret.value
  deriving DecidableEq, Repr

namespace PrivateKey

def ofScalar (secret : Scalar) (compressed : Bool) : PrivateKey :=
  ⟨secret, Point.mulGenerator secret.value, compressed, rfl⟩

/-- The key whose secret is a number in range, written in the short form. -/
def ofNat (number : Nat) : Except WalletError PrivateKey :=
  demand ((Scalar.ofNat? number).map fun secret => ofScalar secret true) .secretOutOfRange

def ofOctets (octets : Octets) : Except WalletError PrivateKey := do
  require (octets.length = 32) (.invalidKeyLength octets.length)
  ofNat (Octets.toNat octets)

/-- The first key that a random source draws, and what it still has to give. -/
def generate? (draws : Draws) : Option (PrivateKey × Draws) :=
  (Scalar.draw? draws).map fun drawn => (ofScalar drawn.1 true, drawn.2)

def octets (key : PrivateKey) : Octets :=
  Octets.ofNat 32 key.secret.value

/-- The public key, in the form that the private key asks for. -/
def publicKey (key : PrivateKey) : PublicKey :=
  ⟨key.point, key.compressed⟩

def withCompression (key : PrivateKey) (compressed : Bool) : PrivateKey :=
  { key with compressed }

/-- A key for display, with the secret left out. -/
def describe (key : PrivateKey) : String :=
  "PrivateKey \x7b d: " ++ Text.quote "<redacted>" ++ ", public: " ++ key.publicKey.describe ++
    " \x7d"

end PrivateKey

end WalletKeys
