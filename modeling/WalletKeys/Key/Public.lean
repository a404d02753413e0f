import WalletKeys.Error

/-!
# Public keys

A public key is a finite point of the curve together with the form in which it is written.
-/

namespace WalletKeys

open Secp256k1

/-- A point, and whether it is written in the short form. -/
structure PublicKey where
  point : Point
  compressed : Bool
  deriving DecidableEq, Repr

namespace PublicKey

/-- The key of a finite point of the curve. -/
def ofPoint (point : Point) (compressed : Bool) : Except WalletError PublicKey := do
  require (!point.isInfinity) (.curve .infinity)
  require point.isOnCurve (.curve .notOnCurve)
  return ⟨point, compressed⟩

def ofOctets (octets : Octets) : Except WalletError PublicKey := do
  let point ← (Point.decode octets).mapError WalletError.curve
  return ⟨point, octets.length == 33⟩

def withCompression (key : PublicKey) (compressed : Bool) : PublicKey :=
  { key with compressed }

/-- The lead octet tells whether the second coordinate is odd; the first one follows. -/
def shortOctets (key : PublicKey) : Octets :=
  (if key.point.y.testBit 0 then 0x03 else 0x02) :: Octets.ofNat 32 key.point.x

def longOctets (key : PublicKey) : Octets :=
  0x04 :: Octets.ofNat 32 key.point.x ++ Octets.ofNat 32 key.point.y

/-- A key writes the short form as its point does. -/
theorem shortOctets_eq (key : PublicKey) : key.shortOctets = key.point.compressed := by
  rw [shortOctets, Point.compressed, Point.isOdd, Point.coordinateOctets]

/-- A key writes the long form as its point does. -/
theorem longOctets_eq (key : PublicKey) : key.longOctets = key.point.uncompressed := by
  rw [longOctets, Point.uncompressed, Point.coordinateOctets, Point.coordinateOctets,
    List.cons_append]

def octets (key : PublicKey) : Octets :=
  if key.compressed then key.shortOctets else key.longOctets

def describe (key : PublicKey) : String :=
  "PublicKey(" ++ Hex.encode key.octets ++ ")"

end PublicKey

end WalletKeys
