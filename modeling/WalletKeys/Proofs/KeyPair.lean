import WalletKeys.Key.Private
import WalletKeys.Proofs.OctetNumbers
import WalletKeys.Proofs.Secp256k1.Multiple

/-!
# Keys and the group

A secret is a class other than zero, and the point of its key is the multiple
of the generator by it: finite, on the curve, and of the group order. A public
key is made of every element but infinity.
-/

namespace WalletKeys

open Secp256k1

theorem inScalarRange_iff (number : ℕ) :
    inScalarRange number = true ↔ 0 < number ∧ number < groupOrder := by
  rw [inScalarRange, Bool.and_eq_true, decide_eq_true_eq, decide_eq_true_eq]

namespace Scalar

theorem ofNat?_eq_none_iff (number : ℕ) :
    ofNat? number = none ↔ ¬inScalarRange number = true := by
  rw [inScalarRange_iff, ofNat?]
  split
  · next inRange =>
      exact iff_of_false (by simp) (not_not_intro inRange)
  · next outOfRange =>
      exact iff_of_true rfl outOfRange

theorem value_of_ofNat? {number : ℕ} {scalar : Scalar}
    (made : ofNat? number = some scalar) : scalar.value = number := by
  unfold ofNat? at made
  split at made
  · cases made
    rfl
  · cases made

theorem ofNat?_value (scalar : Scalar) : ofNat? scalar.value = some scalar := by
  rw [ofNat?, dif_pos ⟨scalar.positive, scalar.below⟩]

theorem cast_ne_zero (scalar : Scalar) : (scalar.value : ScalarField) ≠ 0 := by
  rw [ne_eq, scalar_cast_eq_zero_iff scalar.below]
  exact scalar.positive.ne'

/-- The multiple of the generator by a scalar. -/
def element (scalar : Scalar) : CurveGroup :=
  scalar.value • generatorElement

theorem mulGenerator_value (scalar : Scalar) :
    Point.mulGenerator scalar.value = Point.ofGroup scalar.element := by
  rw [mulGenerator_eq, element]

theorem element_ne_zero (scalar : Scalar) : scalar.element ≠ 0 := by
  rw [element, ne_eq, nsmul_generatorElement_eq_zero_iff]
  exact scalar.cast_ne_zero

theorem groupOrder_nsmul_element (scalar : Scalar) :
    groupOrder • scalar.element = 0 := by
  rw [element, nsmul_left_comm, groupOrder_nsmul_generatorElement, nsmul_zero]

theorem nsmul_element_eq (number : ℕ) (scalar : Scalar) :
    number • scalar.element = (number * scalar.value) • generatorElement := by
  rw [element, smul_smul]

theorem one_lt_groupOrder : 1 < groupOrder := by
  decide

theorem groupOrder_lt_octets : groupOrder < 256 ^ 32 := by
  decide

/-- The least scalar. -/
def one : Scalar :=
  ⟨1, Nat.one_pos, one_lt_groupOrder⟩

end Scalar

namespace PublicKey

theorem ofPoint_infinity (compressed : Bool) :
    ofPoint (Point.ofGroup 0) compressed = .error (.curve .infinity) :=
  rfl

theorem ofPoint_of_isOnCurve {point : Point} (onCurve : point.isOnCurve = true)
    (compressed : Bool) : ofPoint point compressed = .ok ⟨point, compressed⟩ := by
  have finite := Point.not_isInfinity_of_isOnCurve onCurve
  rw [ofPoint, require_bind, if_pos (by simp [finite]), require_bind,
    if_pos onCurve]
  rfl

theorem ofPoint_ofGroup {element : CurveGroup} (nonzero : element ≠ 0)
    (compressed : Bool) :
    ofPoint (Point.ofGroup element) compressed =
      .ok ⟨Point.ofGroup element, compressed⟩ :=
  ofPoint_of_isOnCurve ((Point.isOnCurve_ofGroup element).mpr nonzero) compressed

/-- A key that is made has the form that was asked for and a point of the
curve. -/
theorem isOnCurve_of_ofPoint {point : Point} {compressed : Bool} {key : PublicKey}
    (made : ofPoint point compressed = .ok key) :
    key.compressed = compressed ∧ key.point.isOnCurve = true := by
  obtain ⟨-, after⟩ := require_bind_eq_ok_iff.mp made
  obtain ⟨onCurve, same⟩ := require_bind_eq_ok_iff.mp after
  cases same
  exact ⟨rfl, onCurve⟩

end PublicKey

namespace PrivateKey

theorem ofScalar_secret (key : PrivateKey) :
    ofScalar key.secret key.compressed = key := by
  rcases key with ⟨secret, point, compressed, rfl⟩
  rfl

@[simp]
theorem length_octets (key : PrivateKey) : key.octets.length = 32 :=
  Octets.length_ofNat 32 _

theorem toNat_octets (key : PrivateKey) :
    Octets.toNat key.octets = key.secret.value :=
  Octets.toNat_ofNat_of_lt (key.secret.below.trans Scalar.groupOrder_lt_octets)

theorem point_eq_ofGroup (key : PrivateKey) :
    key.point = Point.ofGroup key.secret.element := by
  rw [key.point_eq, key.secret.mulGenerator_value]

theorem isOnCurve_point (key : PrivateKey) : key.point.isOnCurve := by
  rw [point_eq_ofGroup, Point.isOnCurve_ofGroup]
  exact key.secret.element_ne_zero

theorem mulGenerator_add_point (number : ℕ) (key : PrivateKey) :
    (Point.mulGenerator number).add key.point =
      Point.ofGroup
        (Modular.add number key.secret.value groupOrder • generatorElement) := by
  rw [mulGenerator_eq, key.point_eq_ofGroup, Scalar.element,
    Point.add_ofGroup, ← add_nsmul]
  congr 1
  rw [nsmul_generatorElement_eq_iff, Modular.cast_add, Nat.cast_add]

/-- Adding to the secret adds to the point: the sum of the points is the key of
the sum, and it is no key exactly if the sum is no secret. -/
theorem ofPoint_mulGenerator_add (number : ℕ) (key : PrivateKey)
    (compressed : Bool) :
    PublicKey.ofPoint ((Point.mulGenerator number).add key.point) compressed =
      (Scalar.ofNat? (Modular.add number key.secret.value groupOrder)).elim
        (.error (.curve .infinity)) fun secret =>
          .ok ⟨Point.mulGenerator secret.value, compressed⟩ := by
  rw [mulGenerator_add_point]
  cases made :
      Scalar.ofNat? (Modular.add number key.secret.value groupOrder) with
  | none =>
      have below :
          Modular.add number key.secret.value groupOrder < groupOrder :=
        Modular.add_lt groupOrder_pos
      have zero : Modular.add number key.secret.value groupOrder = 0 := by
        rw [Scalar.ofNat?_eq_none_iff, inScalarRange_iff] at made
        omega
      rw [zero, zero_nsmul, PublicKey.ofPoint_infinity]
      rfl
  | some secret =>
      rw [← Scalar.value_of_ofNat? made, ← Scalar.element,
        PublicKey.ofPoint_ofGroup secret.element_ne_zero,
        ← secret.mulGenerator_value]
      rfl

end PrivateKey

end WalletKeys
