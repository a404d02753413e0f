import WalletKeys.Hex
import WalletKeys.Require
import WalletKeys.Secp256k1.Jacobian

/-!
# Octets of a point

A point is written with both coordinates after the lead octet `04`, or with the first coordinate
alone after `02` or `03`, which tell whether the second is even or odd. Infinity has no octets.
-/

namespace WalletKeys.Secp256k1

def CurveError.message : CurveError → String
  | invalidLength length => "invalid point encoding length: " ++ toString length
  | invalidLead lead => "invalid point encoding prefix: 0x" ++ Hex.encode [lead]
  | notOnCurve => "point not on curve"
  | infinity => "point at infinity has no encoding"

namespace Point

def coordinateOctets (coordinate : Nat) : Octets :=
  Octets.ofNat 32 coordinate

def compressed (point : Point) : Octets :=
  (if point.isOdd then 0x03 else 0x02) :: coordinateOctets point.x

def uncompressed (point : Point) : Octets :=
  0x04 :: (coordinateOctets point.x ++ coordinateOctets point.y)

def encode (short : Bool) (point : Point) : Except CurveError Octets :=
  if point.isInfinity then .error .infinity
  else .ok (if short then point.compressed else point.uncompressed)

/-- The point over an abscissa whose second coordinate is odd, or even, as asked. -/
def ofAbscissa (odd : Bool) (x : Nat) : Except CurveError Point := do
  let y ← demand (Coordinate.solve? x) .notOnCurve
  ofCoordinates x (Coordinate.withParity odd y)

/-- Reads a point in either form. The length is told by what follows the lead octet; a lead octet
that does not belong to the length is refused before the coordinates are looked at. -/
def decode : Octets → Except CurveError Point
  | [] => .error (.invalidLength 0)
  | lead :: rest =>
      if rest.length = 32 then
        if lead = 0x02 ∨ lead = 0x03 then ofAbscissa (lead == 0x03) (Octets.toNat rest)
        else .error (.invalidLead lead)
      else if rest.length = 64 then
        if lead = 0x04 then
          ofCoordinates (Octets.toNat (rest.take 32)) (Octets.toNat (rest.drop 32))
        else .error (.invalidLead lead)
      else .error (.invalidLength (rest.length + 1))

def describe (point : Point) : String :=
  if point.isInfinity then "Point(infinity)"
  else "Point(" ++ Hex.ofNat 64 point.x ++ ", " ++ Hex.ofNat 64 point.y ++ ")"

end Point

end WalletKeys.Secp256k1
