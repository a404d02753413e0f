import WalletKeys.Modular

/-!
# The curve's numbers

The curve is `y ^ 2 = x ^ 3 + 7` over the residues modulo `fieldPrime`. Its points form a group of
`groupOrder` elements. Coordinates are numbers below `fieldPrime`.
-/

namespace WalletKeys.Secp256k1

/-- The modulus of the coordinates. -/
def fieldPrime : Nat :=
  0xfffffffffffffffffffffffffffffffffffffffffffffffffffffffefffffc2f

/-- The number of points, infinity included. -/
def groupOrder : Nat :=
  0xfffffffffffffffffffffffffffffffebaaedce6af48a03bbfd25e8cd0364141

def constantTerm : Nat := 7

def orderBits : Nat := bitLength groupOrder

namespace Coordinate

def add (left right : Nat) : Nat := Modular.add left right fieldPrime

def sub (left right : Nat) : Nat := Modular.sub left right fieldPrime

def mul (left right : Nat) : Nat := Modular.mul left right fieldPrime

def neg (coordinate : Nat) : Nat := Modular.neg coordinate fieldPrime

def inverse (coordinate : Nat) : Nat := Modular.inverse coordinate fieldPrime

def curveValue (x : Nat) : Nat :=
  add (mul (mul x x) x) constantTerm

/-- Some `y` over an abscissa `x`; none if `x` is too large or no point lies over it. -/
def solve? (x : Nat) : Option Nat :=
  if fieldPrime ≤ x then none else Modular.sqrt? (curveValue x) fieldPrime

/-- The one of a root and its opposite that is odd, or even, as asked. -/
def withParity (odd : Bool) (y : Nat) : Nat :=
  if y.testBit 0 = odd then y else neg y

end Coordinate

end WalletKeys.Secp256k1
