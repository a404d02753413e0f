import WalletKeys.Ecdsa.Recover
import WalletKeys.Proofs.Checked.Cut
import WalletKeys.Proofs.Ecdsa.Recovery

/-!
# Differences that are there in the arithmetic of the curve

The operations on points and recovery are run with differences that are missing where
they would be below zero. Every difference in the formulas takes away a residue that
was just reduced, so that none is missing, whatever triples they start from
(`Jacobian.double?_eq`, `Jacobian.add?_eq`). Only the opposite of a point takes away a
coordinate as it is (`Point.neg?_eq`). An inverse is a power whose exponent is two below
the modulus, and a long digest is shifted by the bits that it has more than the group
order; both are differences too.
-/

namespace WalletKeys

namespace Modular

variable {left right residue modulus : ℕ}

def sub? (left right modulus : ℕ) : Option ℕ :=
  if right ≤ left then difference? left right
  else (difference? right left).bind (difference? modulus)

def neg? (residue modulus : ℕ) : Option ℕ :=
  if residue = 0 then some 0 else difference? modulus residue

def inverse? (residue modulus : ℕ) : Option ℕ :=
  (difference? modulus 2).map fun exponent => pow residue exponent modulus

theorem sub?_eq (rightBound : right ≤ modulus) :
    sub? left right modulus = some (sub left right modulus) := by
  unfold sub? sub
  split
  · next ordered =>
      exact difference?_eq ordered
  · next reversed =>
      have gap : right - left ≤ modulus := by
        omega
      rw [difference?_eq (not_le.mp reversed).le, Option.bind_some,
        difference?_eq gap]

theorem neg?_eq (bound : residue ≤ modulus) :
    neg? residue modulus = some (neg residue modulus) := by
  unfold neg? neg
  split
  · rfl
  · exact difference?_eq bound

theorem inverse?_eq (twoLe : 2 ≤ modulus) (residue : ℕ) :
    inverse? residue modulus = some (inverse residue modulus) := by
  rw [inverse?, difference?_eq twoLe]
  rfl

end Modular

namespace Secp256k1

namespace Coordinate

variable {left right coordinate y : ℕ}

def sub? (left right : ℕ) : Option ℕ :=
  Modular.sub? left right fieldPrime

def neg? (coordinate : ℕ) : Option ℕ :=
  Modular.neg? coordinate fieldPrime

def withParity? (odd : Bool) (y : ℕ) : Option ℕ :=
  if y.testBit 0 = odd then some y else neg? y

theorem sub?_eq (rightBound : right < fieldPrime) :
    sub? left right = some (sub left right) :=
  Modular.sub?_eq rightBound.le

theorem neg?_eq (bound : coordinate < fieldPrime) :
    neg? coordinate = some (neg coordinate) :=
  Modular.neg?_eq bound.le

theorem withParity?_eq (odd : Bool) (bound : y < fieldPrime) :
    withParity? odd y = some (withParity odd y) := by
  unfold withParity? withParity
  split
  · rfl
  · exact neg?_eq bound

end Coordinate

namespace Jacobian

def double? (triple : Jacobian) : Option Jacobian :=
  if triple.isInfinity || triple.y == 0 then some infinity
  else do
    let xx := Coordinate.mul triple.x triple.x
    let yy := Coordinate.mul triple.y triple.y
    let yyyy := Coordinate.mul yy yy
    let mixed := Coordinate.add triple.x yy
    let excess ← Coordinate.sub? (Coordinate.mul mixed mixed) xx
    let half ← Coordinate.sub? excess yyyy
    let distance := Coordinate.add half half
    let slope := Coordinate.add (Coordinate.add xx xx) xx
    let x ←
      Coordinate.sub? (Coordinate.mul slope slope) (Coordinate.add distance distance)
    let drop ← Coordinate.sub? distance x
    let y ← Coordinate.sub? (Coordinate.mul slope drop) (Coordinate.mul 8 yyyy)
    let yz := Coordinate.mul triple.y triple.z
    return ⟨x, y, Coordinate.add yz yz⟩

def add? (left right : Jacobian) : Option Jacobian :=
  if left.isInfinity then some right
  else if right.isInfinity then some left
  else do
    let leftSquare := Coordinate.mul left.z left.z
    let rightSquare := Coordinate.mul right.z right.z
    let leftX := Coordinate.mul left.x rightSquare
    let rightX := Coordinate.mul right.x leftSquare
    let leftY := Coordinate.mul (Coordinate.mul left.y right.z) rightSquare
    let rightY := Coordinate.mul (Coordinate.mul right.y left.z) leftSquare
    let run ← Coordinate.sub? rightX leftX
    let rise ← Coordinate.sub? rightY leftY
    if run == 0 then
      if rise == 0 then left.double? else some infinity
    else
      let slope := Coordinate.add rise rise
      let twice := Coordinate.add run run
      let scale := Coordinate.mul twice twice
      let cubic := Coordinate.mul run scale
      let base := Coordinate.mul leftX scale
      let excess ← Coordinate.sub? (Coordinate.mul slope slope) cubic
      let x ← Coordinate.sub? excess (Coordinate.add base base)
      let lift := Coordinate.mul leftY cubic
      let drop ← Coordinate.sub? base x
      let y ← Coordinate.sub? (Coordinate.mul slope drop) (Coordinate.add lift lift)
      let sum := Coordinate.add left.z right.z
      let mixed ← Coordinate.sub? (Coordinate.mul sum sum) leftSquare
      let product ← Coordinate.sub? mixed rightSquare
      return ⟨x, y, Coordinate.mul product run⟩

/-- Both sums of the ladder are checked, the spare one included. -/
def climb? (base : Jacobian) (scalar : ℕ) : (count : ℕ) → Ladder → Option Ladder
  | 0, ladder => some ladder
  | count + 1, ladder => do
      let doubled ← ladder.sum.double?
      if scalar.testBit count then
        let sum ← doubled.add? base
        climb? base scalar count ⟨sum, ladder.spare⟩
      else
        let spare ← ladder.spare.add? base
        climb? base scalar count ⟨doubled, spare⟩

def mul? (scalar : ℕ) (base : Jacobian) : Option Jacobian :=
  (climb? base scalar (bitLength scalar) ⟨infinity, infinity⟩).map Ladder.sum

def toPoint? (triple : Jacobian) : Option Point :=
  if triple.isInfinity then some Point.infinity
  else do
    let inverse ← Modular.inverse? triple.z fieldPrime
    let square := Coordinate.mul inverse inverse
    let cube := Coordinate.mul square inverse
    return ⟨Coordinate.mul triple.x square, Coordinate.mul triple.y cube⟩

theorem double?_eq (triple : Jacobian) : triple.double? = some triple.double := by
  unfold double? double
  split
  · rfl
  · -- What is taken away is a product, a sum or a difference, and so reduced.
    simp (disch := simp) only [Coordinate.sub?_eq, Option.bind_eq_bind,
      Option.bind_some]
    rfl

theorem add?_eq (left right : Jacobian) : left.add? right = some (left.add right) := by
  unfold add? add
  split
  · rfl
  · split
    · rfl
    · simp (disch := simp) only [Coordinate.sub?_eq, double?_eq,
        Option.bind_eq_bind, Option.bind_some]
      split
      · split <;> rfl
      · rfl

theorem climb?_eq (base : Jacobian) (scalar count : ℕ) (ladder : Ladder) :
    climb? base scalar count ladder = some (climb base scalar count ladder) := by
  induction count generalizing ladder with
  | zero =>
      rfl
  | succ count inductionHypothesis =>
      simp only [climb?, climb, double?_eq, add?_eq, inductionHypothesis,
        Option.bind_eq_bind, Option.bind_some]
      split <;> rfl

theorem mul?_eq (scalar : ℕ) (base : Jacobian) :
    base.mul? scalar = some (base.mul scalar) := by
  rw [mul?, climb?_eq, Option.map_some, mul]

theorem toPoint?_eq (triple : Jacobian) :
    triple.toPoint? = some triple.toPoint := by
  unfold toPoint? toPoint
  split
  · rfl
  · rw [Modular.inverse?_eq prime_fieldPrime.two_le]
    rfl

end Jacobian

namespace Point

def neg? (point : Point) : Option Point :=
  if point.isInfinity then some infinity
  else (Coordinate.neg? point.y).map fun y => ⟨point.x, y⟩

def add? (left right : Point) : Option Point :=
  ((Jacobian.ofPoint left).add? (Jacobian.ofPoint right)).bind Jacobian.toPoint?

def double? (point : Point) : Option Point :=
  (Jacobian.ofPoint point).double?.bind Jacobian.toPoint?

def mul? (scalar : ℕ) (point : Point) : Option Point :=
  ((Jacobian.ofPoint point).mul? scalar).bind Jacobian.toPoint?

def mulGenerator? (scalar : ℕ) : Option Point :=
  generator.mul? scalar

def hasGroupOrder? (point : Point) : Option Bool :=
  if point.isInfinity then some false
  else (point.mul? groupOrder).map isInfinity

def ofAbscissa? (odd : Bool) (x : ℕ) : Checked CurveError Point := do
  let y ← demand (Coordinate.solve? x) CurveError.notOnCurve
  let own ← Coordinate.withParity? odd y
  ofCoordinates x own

/-- Reads a point in either form, by the parts that belong to its length. -/
def decode? (octets : Octets) : Checked CurveError Point := do
  let lead ← demand octets.head? (CurveError.invalidLength 0)
  if octets.length = 33 then
    if lead = 0x02 ∨ lead = 0x03 then
      let x ← slice? 1 octets.length octets
      ofAbscissa? (lead == 0x03) (Octets.toNat x)
    else throw (.invalidLead lead)
  else if octets.length = 65 then
    if lead = 0x04 then
      let x ← slice? 1 33 octets
      let y ← slice? 33 octets.length octets
      ofCoordinates (Octets.toNat x) (Octets.toNat y)
    else throw (.invalidLead lead)
  else throw (.invalidLength octets.length)

theorem neg?_eq {point : Point} (bound : point.y < fieldPrime) :
    point.neg? = some point.neg := by
  unfold neg? neg
  split
  · rfl
  · rw [Coordinate.neg?_eq bound, Option.map_some]

theorem add?_eq (left right : Point) : left.add? right = some (left.add right) := by
  rw [add?, Jacobian.add?_eq, Option.bind_some, Jacobian.toPoint?_eq, add]

theorem double?_eq (point : Point) : point.double? = some point.double := by
  rw [double?, Jacobian.double?_eq, Option.bind_some, Jacobian.toPoint?_eq, double]

theorem mul?_eq (scalar : ℕ) (point : Point) :
    point.mul? scalar = some (point.mul scalar) := by
  rw [mul?, Jacobian.mul?_eq, Option.bind_some, Jacobian.toPoint?_eq, mul]

theorem mulGenerator?_eq (scalar : ℕ) :
    mulGenerator? scalar = some (mulGenerator scalar) :=
  mul?_eq scalar generator

theorem hasGroupOrder?_eq (point : Point) :
    point.hasGroupOrder? = some point.hasGroupOrder := by
  rw [hasGroupOrder?, hasGroupOrder, mul?_eq, Option.map_some]
  cases point.isInfinity <;> simp

theorem ofAbscissa?_eq (odd : Bool) (x : ℕ) :
    ofAbscissa? odd x = liftM (ofAbscissa odd x) := by
  unfold ofAbscissa? ofAbscissa
  cases found : Coordinate.solve? x with
  | none =>
      rfl
  | some y =>
      have bound := (Coordinate.lt_of_solve? found).2
      simp [Coordinate.withParity?_eq odd bound]

theorem decode?_eq (octets : Octets) : decode? octets = liftM (decode octets) := by
  cases octets with
  | nil =>
      rfl
  | cons lead rest =>
      have short : (lead :: rest).length = 33 ↔ rest.length = 32 :=
        Nat.succ_inj
      have long : (lead :: rest).length = 65 ↔ rest.length = 64 :=
        Nat.succ_inj
      simp only [decode?, decode, List.head?_cons, demand_some, Checked.liftM_ok,
        pure_bind, short, long]
      by_cases isShort : rest.length = 32
      · have x : slice? 1 (lead :: rest).length (lead :: rest) = some rest :=
          slice?_back (Nat.succ_pos _)
        simp only [if_pos isShort, x, Checked.liftM_some, pure_bind, ofAbscissa?_eq]
        split <;> rfl
      · by_cases isLong : rest.length = 64
        · have size : (lead :: rest).length = 65 :=
            long.mpr isLong
          have enough : 1 + 32 ≤ (lead :: rest).length := by
            omega
          have x : slice? 1 33 (lead :: rest) = some (rest.take 32) :=
            slice?_middle enough
          have y : slice? 33 (lead :: rest).length (lead :: rest) = some (rest.drop 32) :=
            slice?_back (by omega)
          simp only [if_neg isShort, if_pos isLong, x, y, Checked.liftM_some, pure_bind]
          split <;> rfl
        · simp only [if_neg isShort, if_neg isLong]
          rfl

end Point

end Secp256k1

open Secp256k1

/-- The key of a secret, with the point that the multiplication gives. -/
def PrivateKey.ofScalar? (secret : Scalar) (compressed : Bool) : Option PrivateKey :=
  match made : Point.mulGenerator? secret.value with
  | none => none
  | some point =>
      have same : point = Point.mulGenerator secret.value :=
        (Option.some.inj ((Point.mulGenerator?_eq _).symm.trans made)).symm
      some ⟨secret, point, compressed, same⟩

theorem PrivateKey.ofScalar?_eq (secret : Scalar) (compressed : Bool) :
    ofScalar? secret compressed = some (ofScalar secret compressed) := by
  have made := Point.mulGenerator?_eq secret.value
  unfold ofScalar?
  split
  · next missing =>
      rw [made] at missing
      cases missing
  · next point found =>
      rw [made] at found
      cases found
      rfl

namespace PublicKey

def ofOctets? (octets : Octets) : Checked WalletError PublicKey := do
  let point ← (Point.decode? octets).adapt WalletError.curve
  return ⟨point, octets.length == 33⟩

theorem ofOctets?_eq (octets : Octets) : ofOctets? octets = liftM (ofOctets octets) := by
  simp [ofOctets?, ofOctets, Point.decode?_eq]

end PublicKey

namespace Ecdsa

def digestScalar? (digest : Octets) : Option ℕ := do
  let number := Octets.toNat digest
  if orderBits < 8 * digest.length then
    let excess ← Modular.difference? (8 * digest.length) orderBits
    return (number >>> excess) % groupOrder
  else return number % groupOrder

theorem digestScalar?_eq (digest : Octets) :
    digestScalar? digest = some (digestScalar digest) := by
  unfold digestScalar?
  split
  · next long =>
      rw [Modular.difference?_eq long.le]
      rfl
  · next short =>
      rw [digestScalar, digestNumber, Nat.sub_eq_zero_of_le (not_lt.mp short)]
      rfl

def noncePoint? (id : RecoveryId) (signature : Signature) :
    Checked WalletError Point := do
  let x := if id.reduced then signature.r + groupOrder else signature.r
  let y ← demand (Coordinate.solve? x) WalletError.noRecovery
  let own ← Coordinate.withParity? id.odd y
  let point ← (Point.ofCoordinates x own).mapError WalletError.curve
  let whole ← point.hasGroupOrder?
  require whole WalletError.noRecovery
  return point

def keyPoint? (point : Point) (signature : Signature) (digest : Octets) :
    Option Point := do
  let scalar ← digestScalar? digest
  let inverse ← Modular.inverse? signature.r groupOrder
  let opposite ← Modular.neg? scalar groupOrder
  let digestPart ←
    Point.mulGenerator? (Modular.mul opposite inverse groupOrder)
  let noncePart ← point.mul? (Modular.mul signature.s inverse groupOrder)
  digestPart.add? noncePart

def recover? (id : RecoveryId) (signature : Signature) (digest : Octets) :
    Checked WalletError PublicKey := do
  require signature.inRange WalletError.signatureOutOfRange
  let point ← noncePoint? id signature
  let key ← keyPoint? point signature digest
  require (!key.isInfinity) WalletError.noRecovery
  PublicKey.ofPoint key true

def recoverNumbered? (number : UInt8) (signature : Signature) (digest : Octets) :
    Checked WalletError PublicKey := do
  let id ←
    demand (RecoveryId.ofNat? number.toNat) (WalletError.invalidRecoveryId number)
  recover? id signature digest

theorem noncePoint?_eq (id : RecoveryId) (signature : Signature) :
    noncePoint? id signature = liftM (noncePoint id signature) := by
  refine Checked.bind_eq_liftM fun y found => ?_
  have bound := (Coordinate.lt_of_solve? (demand_eq_ok_iff.mp found)).2
  rw [Checked.bind_of_eq_some (Coordinate.withParity?_eq id.odd bound)]
  refine Checked.bind_eq_liftM fun point _ => ?_
  rw [Checked.bind_of_eq_some point.hasGroupOrder?_eq]
  exact Checked.bind_eq_liftM fun _ _ => rfl

theorem keyPoint?_eq (point : Point) (signature : Signature) (digest : Octets) :
    keyPoint? point signature digest = some (keyPoint point signature digest) := by
  simp only [keyPoint?, digestScalar?_eq,
    Modular.inverse?_eq prime_groupOrder.two_le,
    Modular.neg?_eq (digestScalar_lt digest).le, Point.mulGenerator?_eq, Point.mul?_eq, Point.add?_eq,
    Option.bind_eq_bind, Option.bind_some]
  rfl

theorem recover?_eq (id : RecoveryId) (signature : Signature) (digest : Octets) :
    recover? id signature digest = liftM (recover id signature digest) := by
  refine Checked.bind_eq_liftM fun _ _ => ?_
  rw [noncePoint?_eq]
  refine Checked.bind_eq_liftM fun point _ => ?_
  rw [Checked.bind_of_eq_some (keyPoint?_eq point signature digest)]
  exact Checked.bind_eq_liftM fun _ _ => rfl

theorem recoverNumbered?_eq (number : UInt8) (signature : Signature) (digest : Octets) :
    recoverNumbered? number signature digest =
      liftM (recoverNumbered number signature digest) :=
  Checked.bind_eq_liftM fun id _ => recover?_eq id signature digest

end Ecdsa

end WalletKeys
