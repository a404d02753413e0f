import WalletKeys.Proofs.Checked.Curve
import WalletKeys.Proofs.Ecdsa.Recovery
import WalletKeys.Proofs.Hd.Derivation
import WalletKeys.Proofs.Key.Public
import WalletKeys.Proofs.Secp256k1.AffineLaw

/-!
# Obtained points

Points come from the operations on points, from keys, from recovery and from
public derivation (`PointOperation`). Whatever sequence of them leads to a point,
it is infinity or a point of the curve with reduced coordinates
(`Obtained.inGroup`), so that no operation on such points meets a difference
below zero (`PointOperation.checked_eq`). The pair of zeros is kept for infinity
(`points_canonical`).
-/

namespace WalletKeys

open Secp256k1

namespace PublicNode

def childBy? (digests : TreeDigests) (node : PublicNode) (index : UInt32) :
    Checked DerivationError PublicNode := do
  require (index < ChildNumber.hardenedOffset) DerivationError.hardenedFromPublic
  let depth ← childDepth node.depth
  let data := node.key.shortOctets ++ Octets.ofNat 4 index.toNat
  let digest := digests.extend node.chainCode.octets data
  let left := leftNumber digest
  require (inScalarRange left) DerivationError.invalidChild
  let leftPoint ← Point.mulGenerator? left
  let sum ← leftPoint.add? node.key.point
  let key ←
    (PublicKey.ofPoint sum true).mapError fun _ => DerivationError.invalidChild
  return {
    versions := node.versions
    depth
    parentFingerprint := fingerprintBy digests node.key
    childNumber := index
    chainCode := rightBlock digest
    key }

theorem childBy?_eq (digests : TreeDigests) (node : PublicNode) (index : UInt32) :
    node.childBy? digests index = liftM (node.childBy digests index) := by
  simp [childBy?, childBy, Point.mulGenerator?_eq, Point.add?_eq]

end PublicNode

namespace Secp256k1.Point

variable {point : Point}

/-- The pair of zeros, or numbers below the field prime that satisfy the
equation. -/
def IsCanonical (point : Point) : Prop :=
  point = ⟨0, 0⟩ ∨
    (point.x < fieldPrime ∧ point.y < fieldPrime ∧
      point.y ^ 2 ≡ point.x ^ 3 + 7 [MOD fieldPrime])

theorem InGroup.isCanonical (inGroup : point.InGroup) : point.IsCanonical :=
  inGroup.imp_right (isOnCurve_iff_modEq point).mp

end Secp256k1.Point

/-- What yields a point: an operation on points, the making of a key, recovery,
or a step from a public node. -/
inductive PointOperation where
  | infinity
  | generator
  | ofCoordinates (x y : ℕ)
  | decode (octets : Octets)
  | neg (point : Point)
  | add (left right : Point)
  | double (point : Point)
  | mul (scalar : ℕ) (point : Point)
  | mulGenerator (scalar : ℕ)
  | publicKey (point : Point) (compressed : Bool)
  | publicKeyOfOctets (octets : Octets)
  | rewritten (key : PublicKey) (compressed : Bool)
  | privateKey (key : PrivateKey)
  | recovered (number : UInt8) (signature : Signature) (digest : Octets)
  | child (digests : TreeDigests) (node : PublicNode) (index : UInt32)

namespace PointOperation

/-- The points that an operation starts from. -/
def operands : PointOperation → List Point
  | neg point => [point]
  | add left right => [left, right]
  | double point => [point]
  | mul _ point => [point]
  | publicKey point _ => [point]
  | rewritten key _ => [key.point]
  | child _ node _ => [node.key.point]
  | _ => []

/-- The point that an operation yields, or none if it is refused. A private key
has the point that it was made with, whatever its secret was read from. -/
def point? : PointOperation → Option Point
  | infinity => some Point.infinity
  | generator => some Point.generator
  | ofCoordinates x y => (Point.ofCoordinates x y).toOption
  | decode octets => (Point.decode octets).toOption
  | neg point => some point.neg
  | add left right => some (left.add right)
  | double point => some point.double
  | mul scalar point => some (point.mul scalar)
  | mulGenerator scalar => some (Point.mulGenerator scalar)
  | publicKey point compressed =>
      (PublicKey.ofPoint point compressed).toOption.map PublicKey.point
  | publicKeyOfOctets octets =>
      (PublicKey.ofOctets octets).toOption.map PublicKey.point
  | rewritten key compressed => some (key.withCompression compressed).point
  | privateKey key => some key.point
  | recovered number signature digest =>
      (Ecdsa.recoverNumbered number signature digest).toOption.map PublicKey.point
  | child digests node index =>
      (node.childBy digests index).toOption.map fun below => below.key.point

/-- The same with checked differences; none if one is missing. -/
def checked : PointOperation → Option (Option Point)
  | infinity => some (some Point.infinity)
  | generator => some (some Point.generator)
  | ofCoordinates x y => some (Point.ofCoordinates x y).toOption
  | decode octets => (Point.decode? octets).run.map Except.toOption
  | neg point => point.neg?.map some
  | add left right => (left.add? right).map some
  | double point => point.double?.map some
  | mul scalar point => (point.mul? scalar).map some
  | mulGenerator scalar => (Point.mulGenerator? scalar).map some
  | publicKey point compressed =>
      some ((PublicKey.ofPoint point compressed).toOption.map PublicKey.point)
  | publicKeyOfOctets octets =>
      (PublicKey.ofOctets? octets).run.map fun outcome =>
        outcome.toOption.map PublicKey.point
  | rewritten key compressed => some (some (key.withCompression compressed).point)
  | privateKey key => (Point.mulGenerator? key.secret.value).map some
  | recovered number signature digest =>
      (Ecdsa.recoverNumbered? number signature digest).run.map fun outcome =>
        outcome.toOption.map PublicKey.point
  | child digests node index =>
      (node.childBy? digests index).run.map fun outcome =>
        outcome.toOption.map fun below => below.key.point

/-- On points of the group no difference is missing. -/
theorem checked_eq {operation : PointOperation}
    (inGroup : ∀ operand ∈ operation.operands, operand.InGroup) :
    operation.checked = some operation.point? := by
  cases operation with
  | infinity =>
      rfl
  | generator =>
      rfl
  | ofCoordinates x y =>
      rfl
  | decode octets =>
      rw [checked, Point.decode?_eq, Checked.run_liftM, Option.map_some, point?]
  | neg point =>
      -- The one case that needs its operand to be reduced.
      have bound := (inGroup point (List.mem_singleton_self point)).y_lt
      rw [checked, Point.neg?_eq bound, Option.map_some, point?]
  | add left right =>
      rw [checked, Point.add?_eq, Option.map_some, point?]
  | double point =>
      rw [checked, Point.double?_eq, Option.map_some, point?]
  | mul scalar point =>
      rw [checked, Point.mul?_eq, Option.map_some, point?]
  | mulGenerator scalar =>
      rw [checked, Point.mulGenerator?_eq, Option.map_some, point?]
  | publicKey point compressed =>
      rfl
  | publicKeyOfOctets octets =>
      rw [checked, PublicKey.ofOctets?_eq, Checked.run_liftM, Option.map_some,
        point?]
  | rewritten key compressed =>
      rfl
  | privateKey key =>
      rw [checked, Point.mulGenerator?_eq, Option.map_some, point?, key.point_eq]
  | recovered number signature digest =>
      rw [checked, Ecdsa.recoverNumbered?_eq, Checked.run_liftM, Option.map_some,
        point?]
  | child digests node index =>
      rw [checked, PublicNode.childBy?_eq, Checked.run_liftM, Option.map_some,
        point?]

/-- From points of the group an operation yields one. -/
theorem inGroup_of_point? {operation : PointOperation} {point : Point}
    (inGroup : ∀ operand ∈ operation.operands, operand.InGroup)
    (yields : operation.point? = some point) : point.InGroup := by
  cases operation with
  | infinity =>
      cases yields
      exact Or.inl rfl
  | generator =>
      cases yields
      exact Or.inr isOnCurve_generator
  | ofCoordinates x y =>
      have made := toOption_eq_some_iff.mp yields
      exact Or.inr (Point.ofCoordinates_eq_ok_iff.mp made).1
  | decode octets =>
      have read := toOption_eq_some_iff.mp yields
      exact Or.inr (Point.decode_eq_ok_iff.mp read).1
  | neg operand =>
      cases yields
      exact (inGroup operand (by simp [operands])).neg
  | add left right =>
      cases yields
      have leftIn := inGroup left (by simp [operands])
      have rightIn := inGroup right (by simp [operands])
      exact leftIn.add rightIn
  | double operand =>
      cases yields
      exact (inGroup operand (by simp [operands])).double
  | mul scalar operand =>
      cases yields
      exact (inGroup operand (by simp [operands])).mul scalar
  | mulGenerator scalar =>
      cases yields
      have generatorIn : Point.generator.InGroup :=
        Or.inr isOnCurve_generator
      exact generatorIn.mul scalar
  | publicKey operand compressed =>
      obtain ⟨key, made, rfl⟩ := Option.map_eq_some_iff.mp yields
      exact Or.inr (PublicKey.isOnCurve_of_ofPoint (toOption_eq_some_iff.mp made)).2
  | publicKeyOfOctets octets =>
      obtain ⟨key, read, rfl⟩ := Option.map_eq_some_iff.mp yields
      exact
        Or.inr (PublicKey.ofOctets_eq_ok_iff.mp (toOption_eq_some_iff.mp read)).1
  | rewritten key compressed =>
      cases yields
      exact inGroup key.point (by simp [operands])
  | privateKey key =>
      cases yields
      exact Or.inr key.isOnCurve_point
  | recovered number signature digest =>
      obtain ⟨key, read, rfl⟩ := Option.map_eq_some_iff.mp yields
      obtain ⟨id, -, recovered⟩ :=
        (Ecdsa.recoverNumbered_eq_ok_iff _ _ _ _).mp (toOption_eq_some_iff.mp read)
      obtain ⟨-, element, -, -, rfl⟩ :=
        (Ecdsa.recover_eq_ok_iff _ _ _ _).mp recovered
      exact (Point.inGroup_iff_exists _).mpr ⟨_, rfl⟩
  | child digests node index =>
      obtain ⟨below, reached, rfl⟩ := Option.map_eq_some_iff.mp yields
      obtain ⟨-, -, -, key, made, rfl⟩ :=
        PublicNode.childBy_eq_ok_iff.mp (toOption_eq_some_iff.mp reached)
      exact Or.inr (PublicKey.isOnCurve_of_ofPoint made).2

end PointOperation

/-- Some finite sequence of operations leads to the point, each from points that
were obtained before. -/
inductive Obtained : Point → Prop where
  | yielded {operation : PointOperation} {point : Point}
      (operands : ∀ operand ∈ operation.operands, Obtained operand)
      (yields : operation.point? = some point) : Obtained point

theorem Obtained.inGroup {point : Point} (obtained : Obtained point) :
    point.InGroup := by
  induction obtained with
  | yielded _ yields inductionHypothesis =>
      exact PointOperation.inGroup_of_point? inductionHypothesis yields

namespace Secp256k1

/-- No solution of the equation is written as two zeros, since seven is none. -/
theorem not_modEq_zero_of_equation {x y : ℕ}
    (equation : y ^ 2 ≡ x ^ 3 + 7 [MOD fieldPrime]) :
    ¬(x ≡ 0 [MOD fieldPrime] ∧ y ≡ 0 [MOD fieldPrime]) := by
  rintro ⟨xZero, yZero⟩
  have seven : 0 ^ 2 ≡ 0 ^ 3 + 7 [MOD fieldPrime] :=
    (yZero.pow 2).symm.trans (equation.trans ((xZero.pow 3).add_right 7))
  exact absurd seven (by decide)

end Secp256k1

/-- Obtained points are canonical: they are the pair of zeros, or reduced
coordinates of a point of the curve. The pair of zeros is no solution of the
equation, no finite triple becomes it, and a sum, a double, a multiple or an
opposite is written as it only if it is infinity in the group. No operation on
obtained points takes a number from a smaller one. -/
theorem points_canonical :
    (∀ point, Obtained point → point.IsCanonical) ∧
      (∀ x y : ℕ, y ^ 2 ≡ x ^ 3 + 7 [MOD fieldPrime] →
        ¬(x ≡ 0 [MOD fieldPrime] ∧ y ≡ 0 [MOD fieldPrime])) ∧
      (∀ triple : Jacobian, triple.IsValid →
        (triple.toPoint = ⟨0, 0⟩ ↔ triple.z = 0)) ∧
      (∀ left right : Point, ∀ scalar : ℕ, Obtained left → Obtained right →
        (left.neg = ⟨0, 0⟩ ↔ -left.toGroup = 0) ∧
          (left.add right = ⟨0, 0⟩ ↔ left.toGroup + right.toGroup = 0) ∧
          (left.double = ⟨0, 0⟩ ↔ left.toGroup + left.toGroup = 0) ∧
          (left.mul scalar = ⟨0, 0⟩ ↔ scalar • left.toGroup = 0)) ∧
      ∀ operation : PointOperation,
        (∀ operand ∈ operation.operands, Obtained operand) →
          operation.checked = some operation.point? := by
  refine ⟨?_, ?_, ?_, ?_, ?_⟩
  · intro point obtained
    exact obtained.inGroup.isCanonical
  · intro x y equation
    exact not_modEq_zero_of_equation equation
  · intro triple valid
    exact valid.toPoint_eq_zeros_iff
  · intro left right scalar leftObtained rightObtained
    obtain ⟨leftElement, rfl⟩ :=
      (Point.inGroup_iff_exists left).mp leftObtained.inGroup
    obtain ⟨rightElement, rfl⟩ :=
      (Point.inGroup_iff_exists right).mp rightObtained.inGroup
    simp only [Point.neg_ofGroup, Point.add_ofGroup, Point.double_ofGroup,
      Point.mul_ofGroup, Point.toGroup_ofGroup]
    exact
      ⟨Point.ofGroup_eq_infinity_iff _, Point.ofGroup_eq_infinity_iff _,
        Point.ofGroup_eq_infinity_iff _, Point.ofGroup_eq_infinity_iff _⟩
  · intro operation obtained
    apply PointOperation.checked_eq
    intro operand member
    exact (obtained operand member).inGroup

/-- The double of the generator and its opposite: both are obtained, and the
triple of their sum, the pair of zeros, stands for infinity. The opposite of an
ordinate that is not reduced would miss a difference. -/
theorem points_canonical_cancelling :
    let twice := Point.generator.double
    let opposite := twice.neg
    let sum := (Jacobian.ofPoint twice).add (Jacobian.ofPoint opposite)
    (Obtained twice ∧ Obtained opposite ∧ opposite.IsCanonical) ∧
      (opposite.y ^ 2 ≡ opposite.x ^ 3 + 7 [MOD fieldPrime] ∧
        ¬(opposite.x ≡ 0 [MOD fieldPrime] ∧ opposite.y ≡ 0 [MOD fieldPrime])) ∧
      (sum.IsValid ∧ sum.toPoint = ⟨0, 0⟩ ∧ sum.z = 0) ∧
      twice.toGroup + opposite.toGroup = 0 ∧
      PointOperation.checked (.neg twice) = some (some opposite) ∧
      PointOperation.checked (.neg ⟨1, fieldPrime + 1⟩) = none := by
  intro twice opposite sum
  obtain ⟨canonical, equations, triples, elements, operations⟩ := points_canonical
  have generatorObtained : Obtained Point.generator :=
    @Obtained.yielded .generator _ nofun rfl
  have twiceOperands :
      ∀ operand ∈ PointOperation.operands (.double Point.generator),
        Obtained operand :=
    List.forall_mem_singleton.mpr generatorObtained
  have twiceObtained : Obtained twice :=
    Obtained.yielded twiceOperands rfl
  have operands : ∀ operand ∈ PointOperation.operands (.neg twice), Obtained operand :=
    List.forall_mem_singleton.mpr twiceObtained
  have oppositeObtained : Obtained opposite :=
    Obtained.yielded operands rfl
  have onCurve : opposite.isOnCurve = true := by
    decide +kernel
  have equation := ((Point.isOnCurve_iff_modEq opposite).mp onCurve).2.2
  have cancelled : twice.add opposite = ⟨0, 0⟩ := by
    decide +kernel
  have valid : sum.IsValid := by
    have infinite : sum.z = 0 := by
      decide +kernel
    exact ⟨⟨by decide +kernel, by decide +kernel, by decide +kernel⟩, Or.inl infinite⟩
  have beyond : PointOperation.checked (.neg ⟨1, fieldPrime + 1⟩) = none := by
    decide
  exact
    ⟨⟨twiceObtained, oppositeObtained, canonical _ oppositeObtained⟩,
      ⟨equation, equations _ _ equation⟩,
      ⟨valid, cancelled, (triples _ valid).mp cancelled⟩,
      ((elements twice opposite 0 twiceObtained oppositeObtained).2.1).mp cancelled,
      operations _ operands, beyond⟩

end WalletKeys
