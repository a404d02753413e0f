import WalletKeys.Secp256k1.Field

/-!
# Points of the curve

A point is held by its two affine coordinates. No point of the curve has both equal to zero, since
seven is not zero, and so the pair of zeros stands for the point at infinity.
-/

namespace WalletKeys.Secp256k1

/-- Why coordinates or octets are no point, or a point has no octets. -/
inductive CurveError where
  | invalidLength (length : Nat)
  | invalidLead (lead : UInt8)
  | notOnCurve
  | infinity
  deriving DecidableEq, Repr

/-- An affine point, with `(0, 0)` for infinity. -/
structure Point where
  x : Nat
  y : Nat
  deriving DecidableEq, Repr

namespace Point

def infinity : Point := ⟨0, 0⟩

def generator : Point where
  x := 0x79be667ef9dcbbac55a06295ce870b07029bfcdb2dce28d959f2815b16f81798
  y := 0x483ada7726a3c4655da4fbfc0e1108a8fd17b448a68554199c47d08ffb10d4b8

def isInfinity (point : Point) : Bool :=
  point.x == 0 && point.y == 0

/-- Both coordinates are below the field prime and satisfy the equation. Infinity does not. -/
def isOnCurve (point : Point) : Bool :=
  decide (point.x < fieldPrime) && decide (point.y < fieldPrime) && !point.isInfinity &&
    Coordinate.mul point.y point.y == Coordinate.curveValue point.x

/-- The point with the given coordinates, which have to satisfy the equation. -/
def ofCoordinates (x y : Nat) : Except CurveError Point :=
  if Point.isOnCurve ⟨x, y⟩ then .ok ⟨x, y⟩ else .error .notOnCurve

def neg (point : Point) : Point :=
  if point.isInfinity then infinity else ⟨point.x, Coordinate.neg point.y⟩

def isOdd (point : Point) : Bool :=
  point.y.testBit 0

end Point

end WalletKeys.Secp256k1
