import WalletKeys.Secp256k1.Point

/-!
# Jacobian coordinates

The triple `(x, y, z)` stands for the point `(x / z ^ 2, y / z ^ 3)`, and every triple with `z = 0`
for infinity. Sums and doubles of triples need no inverse; the way back to a point needs one.
-/

namespace WalletKeys.Secp256k1

/-- A point in Jacobian coordinates. -/
structure Jacobian where
  x : Nat
  y : Nat
  z : Nat
  deriving DecidableEq, Repr

namespace Jacobian

def infinity : Jacobian := ⟨1, 1, 0⟩

def isInfinity (triple : Jacobian) : Bool :=
  triple.z == 0

/-- The triple of a point whose third coordinate is one. -/
def ofPoint (point : Point) : Jacobian :=
  if point.isInfinity then infinity else ⟨point.x, point.y, 1⟩

def toPoint (triple : Jacobian) : Point :=
  if triple.isInfinity then Point.infinity
  else
    let inverse := Coordinate.inverse triple.z
    let square := Coordinate.mul inverse inverse
    let cube := Coordinate.mul square inverse
    ⟨Coordinate.mul triple.x square, Coordinate.mul triple.y cube⟩

def double (triple : Jacobian) : Jacobian :=
  if triple.isInfinity || triple.y == 0 then infinity
  else
    let xx := Coordinate.mul triple.x triple.x
    let yy := Coordinate.mul triple.y triple.y
    let yyyy := Coordinate.mul yy yy
    let mixed := Coordinate.add triple.x yy
    let half := Coordinate.sub (Coordinate.sub (Coordinate.mul mixed mixed) xx) yyyy
    let distance := Coordinate.add half half
    let slope := Coordinate.add (Coordinate.add xx xx) xx
    let x := Coordinate.sub (Coordinate.mul slope slope) (Coordinate.add distance distance)
    let y :=
      Coordinate.sub (Coordinate.mul slope (Coordinate.sub distance x)) (Coordinate.mul 8 yyyy)
    let yz := Coordinate.mul triple.y triple.z
    ⟨x, y, Coordinate.add yz yz⟩

/-- The sum of two points, by the chord; equal points are doubled and opposite ones cancel. -/
def add (left right : Jacobian) : Jacobian :=
  if left.isInfinity then right
  else if right.isInfinity then left
  else
    let leftSquare := Coordinate.mul left.z left.z
    let rightSquare := Coordinate.mul right.z right.z
    let leftX := Coordinate.mul left.x rightSquare
    let rightX := Coordinate.mul right.x leftSquare
    let leftY := Coordinate.mul (Coordinate.mul left.y right.z) rightSquare
    let rightY := Coordinate.mul (Coordinate.mul right.y left.z) leftSquare
    let run := Coordinate.sub rightX leftX
    let rise := Coordinate.sub rightY leftY
    if run == 0 then
      if rise == 0 then left.double else infinity
    else
      let slope := Coordinate.add rise rise
      let twice := Coordinate.add run run
      let scale := Coordinate.mul twice twice
      let cubic := Coordinate.mul run scale
      let base := Coordinate.mul leftX scale
      let x :=
        Coordinate.sub (Coordinate.sub (Coordinate.mul slope slope) cubic)
          (Coordinate.add base base)
      let lift := Coordinate.mul leftY cubic
      let y :=
        Coordinate.sub (Coordinate.mul slope (Coordinate.sub base x)) (Coordinate.add lift lift)
      let sum := Coordinate.add left.z right.z
      let z :=
        Coordinate.mul
          (Coordinate.sub (Coordinate.sub (Coordinate.mul sum sum) leftSquare) rightSquare) run
      ⟨x, y, z⟩

/-- What a multiplication carries along: the sum so far, and a spare sum that takes the additions
which the digits of the scalar do not ask for, so that every digit costs the same. -/
structure Ladder where
  sum : Jacobian
  spare : Jacobian
  deriving DecidableEq, Repr

/-- Works through the lowest `count` digits of the scalar, highest first. -/
def climb (base : Jacobian) (scalar : Nat) : (count : Nat) → Ladder → Ladder
  | 0, ladder => ladder
  | count + 1, ladder =>
      let doubled := ladder.sum.double
      climb base scalar count
        (if scalar.testBit count then ⟨doubled.add base, ladder.spare⟩
        else ⟨doubled, ladder.spare.add base⟩)

def mul (scalar : Nat) (base : Jacobian) : Jacobian :=
  (climb base scalar (bitLength scalar) ⟨infinity, infinity⟩).sum

end Jacobian

namespace Point

def add (left right : Point) : Point :=
  ((Jacobian.ofPoint left).add (Jacobian.ofPoint right)).toPoint

def double (point : Point) : Point :=
  (Jacobian.ofPoint point).double.toPoint

/-- The sum of `scalar` copies of a point. The scalar is taken as it is and not reduced, so that
multiples by `groupOrder` tell the order of a point. -/
def mul (scalar : Nat) (point : Point) : Point :=
  ((Jacobian.ofPoint point).mul scalar).toPoint

def mulGenerator (scalar : Nat) : Point :=
  generator.mul scalar

/-- A finite point that `groupOrder` takes to infinity. -/
def hasGroupOrder (point : Point) : Bool :=
  !point.isInfinity && (point.mul groupOrder).isInfinity

end Point

end WalletKeys.Secp256k1
