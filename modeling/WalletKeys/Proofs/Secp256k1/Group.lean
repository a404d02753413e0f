import Mathlib.AlgebraicGeometry.EllipticCurve.Affine.Point
import WalletKeys.Proofs.Secp256k1.Coordinate
import WalletKeys.Secp256k1.Point

/-!
# The group of the curve

Mathlib's group of the curve `y ^ 2 = x ^ 3 + 7` over the field of the
coordinates is what the points of this library stand for. `Point.ofGroup`
writes an element as a pair of numbers; it is injective, and what it writes is
infinity or a point on the curve. `Point.toGroup` reads such a point back.
-/

namespace WalletKeys.Secp256k1

/-- The curve `y ^ 2 = x ^ 3 + 7`. -/
def curve : WeierstrassCurve.Affine CoordinateField :=
  ⟨0, 0, 0, 0, 7⟩

/-- The points of the curve as a group, with infinity as zero. -/
abbrev CurveGroup := curve.Point

theorem equation_iff (x y : CoordinateField) :
    curve.Equation x y ↔ y ^ 2 = x ^ 3 + 7 := by
  rw [WeierstrassCurve.Affine.equation_iff]
  simp [curve]

theorem discriminant_ne_zero : curve.Δ ≠ 0 := by
  have value : curve.Δ = -((21168 : ℕ) : CoordinateField) := by
    simp only [WeierstrassCurve.Δ, WeierstrassCurve.b₂, WeierstrassCurve.b₄,
      WeierstrassCurve.b₆, WeierstrassCurve.b₈, curve]
    push_cast
    ring
  rw [value, neg_ne_zero]
  exact Coordinate.natCast_ne_zero (by decide) (by decide)

theorem nonsingular_iff (x y : CoordinateField) :
    curve.Nonsingular x y ↔ y ^ 2 = x ^ 3 + 7 := by
  rw [← WeierstrassCurve.Affine.equation_iff_nonsingular_of_Δ_ne_zero
    discriminant_ne_zero, equation_iff]

theorem x_ne_zero_of_nonsingular {x y : CoordinateField}
    (onCurve : curve.Nonsingular x y) : x ≠ 0 := by
  rintro rfl
  rw [nonsingular_iff, zero_pow three_ne_zero, zero_add] at onCurve
  exact Coordinate.not_isSquare_seven ⟨y, by rw [← onCurve, pow_two]⟩

theorem y_ne_zero_of_nonsingular {x y : CoordinateField}
    (onCurve : curve.Nonsingular x y) : y ≠ 0 := by
  rintro rfl
  rw [nonsingular_iff, zero_pow two_ne_zero] at onCurve
  exact Coordinate.cube_add_seven_ne_zero x onCurve.symm

@[simp]
theorem negY_curve (x y : CoordinateField) : curve.negY x y = -y := by
  simp [WeierstrassCurve.Affine.negY, curve]

namespace CurveGroup

open WeierstrassCurve.Affine

variable {x₁ y₁ x₂ y₂ : CoordinateField}

/-- Two points over different abscissas are added along their chord. -/
theorem some_add_some_of_x_ne
    (left : curve.Nonsingular x₁ y₁) (right : curve.Nonsingular x₂ y₂)
    (different : x₁ ≠ x₂) :
    ∃ slope x₃ y₃, ∃ sum : curve.Nonsingular x₃ y₃,
      Point.some x₁ y₁ left + Point.some x₂ y₂ right = Point.some x₃ y₃ sum ∧
        y₂ = y₁ + slope * (x₂ - x₁) ∧
        x₃ = slope ^ 2 - x₁ - x₂ ∧
        y₃ = slope * (x₁ - x₃) - y₁ := by
  have gap : x₁ - x₂ ≠ 0 :=
    sub_ne_zero.mpr different
  refine
    ⟨curve.slope x₁ x₂ y₁ y₂, _, _, _, Point.add_of_X_ne different, ?_, ?_, ?_⟩
  · rw [slope_of_X_ne different]
    field_simp
    ring
  · simp [addX, curve]
  · simp only [addY, negAddY, negY_curve]
    ring

/-- A point is added to itself along its tangent. -/
theorem some_add_self (point : curve.Nonsingular x₁ y₁) :
    ∃ slope x₃ y₃, ∃ sum : curve.Nonsingular x₃ y₃,
      Point.some x₁ y₁ point + Point.some x₁ y₁ point = Point.some x₃ y₃ sum ∧
        2 * y₁ * slope = 3 * x₁ ^ 2 ∧
        x₃ = slope ^ 2 - 2 * x₁ ∧
        y₃ = slope * (x₁ - x₃) - y₁ := by
  have nonzero : y₁ ≠ 0 :=
    y_ne_zero_of_nonsingular point
  have steep : y₁ ≠ curve.negY x₁ y₁ := by
    rw [negY_curve]
    intro opposite
    have doubled : 2 * y₁ = 0 := by
      linear_combination opposite
    exact (mul_ne_zero Coordinate.two_ne_zero nonzero) doubled
  refine
    ⟨curve.slope x₁ x₁ y₁ y₁, _, _, _, Point.add_self_of_Y_ne steep, ?_, ?_, ?_⟩
  · have two : (2 : CoordinateField) ≠ 0 :=
      Coordinate.two_ne_zero
    rw [slope_of_Y_ne rfl steep, negY_curve]
    simp only [curve]
    have twice : y₁ - -y₁ = 2 * y₁ := by
      ring
    rw [twice]
    field_simp
    ring
  · simp only [addX, curve]
    ring
  · simp only [addY, negAddY, negY_curve]
    ring

theorem some_eq_or_eq_neg
    (left : curve.Nonsingular x₁ y₁) (right : curve.Nonsingular x₂ y₂) :
    x₁ = x₂ ↔
      Point.some x₁ y₁ left = Point.some x₂ y₂ right ∨
        Point.some x₁ y₁ left = -Point.some x₂ y₂ right :=
  Point.X_eq_iff

end CurveGroup

/-! ## Elements as points -/

namespace Point

/-- The pair of numbers for an element of the group. -/
def ofGroup : CurveGroup → Point
  | .zero => infinity
  | .some x y _ => ⟨x.val, y.val⟩

@[simp]
theorem ofGroup_zero : ofGroup 0 = infinity :=
  rfl

theorem ofGroup_some {x y : CoordinateField} (onCurve : curve.Nonsingular x y) :
    ofGroup (.some x y onCurve) = ⟨x.val, y.val⟩ :=
  rfl

theorem isOnCurve_iff (point : Point) :
    point.isOnCurve ↔
      point.x < fieldPrime ∧ point.y < fieldPrime ∧
        curve.Nonsingular point.x point.y := by
  simp only [isOnCurve, isInfinity, Bool.and_eq_true, decide_eq_true_eq,
    Bool.not_eq_true', beq_iff_eq, nonsingular_iff]
  rw [← Coordinate.cast_inj (Coordinate.mul_lt _ _) (Coordinate.curveValue_lt _),
    Coordinate.cast_mul, Coordinate.cast_curveValue, ← pow_two]
  constructor
  · rintro ⟨⟨⟨xBound, yBound⟩, _⟩, equation⟩
    exact ⟨xBound, yBound, equation⟩
  · rintro ⟨xBound, yBound, equation⟩
    refine ⟨⟨⟨xBound, yBound⟩, ?_⟩, equation⟩
    rw [Bool.and_eq_false_iff]
    refine Or.inl (beq_eq_false_iff_ne.mpr ?_)
    intro zero
    refine x_ne_zero_of_nonsingular ((nonsingular_iff _ _).mpr equation) ?_
    rw [zero, Nat.cast_zero]

/-- The equation as a congruence of numbers. -/
theorem isOnCurve_iff_modEq (point : Point) :
    point.isOnCurve = true ↔
      point.x < fieldPrime ∧ point.y < fieldPrime ∧
        point.y ^ 2 ≡ point.x ^ 3 + 7 [MOD fieldPrime] := by
  rw [isOnCurve_iff, nonsingular_iff, ← ZMod.natCast_eq_natCast_iff]
  push_cast
  rfl

/-- The element that a point of the curve stands for; anything else is read as
infinity. -/
def toGroup (point : Point) : CurveGroup :=
  if onCurve : point.isOnCurve then
    .some point.x point.y ((isOnCurve_iff point).mp onCurve).2.2
  else 0

theorem ofGroup_toGroup {point : Point} (onCurve : point.isOnCurve) :
    ofGroup point.toGroup = point := by
  obtain ⟨xBound, yBound, _⟩ := (isOnCurve_iff point).mp onCurve
  rw [toGroup, dif_pos onCurve, ofGroup_some, ZMod.val_natCast_of_lt xBound,
    ZMod.val_natCast_of_lt yBound]

theorem isOnCurve_ofGroup_some {x y : CoordinateField}
    (onCurve : curve.Nonsingular x y) :
    (ofGroup (.some x y onCurve)).isOnCurve := by
  rw [isOnCurve_iff, ofGroup_some]
  refine ⟨ZMod.val_lt x, ZMod.val_lt y, ?_⟩
  rw [ZMod.natCast_zmod_val, ZMod.natCast_zmod_val]
  exact onCurve

@[simp]
theorem isOnCurve_ofGroup (element : CurveGroup) :
    (ofGroup element).isOnCurve = true ↔ element ≠ 0 := by
  cases element with
  | zero =>
      exact iff_of_false Bool.false_ne_true fun nonzero => nonzero rfl
  | some x y onCurve =>
      exact
        iff_of_true (isOnCurve_ofGroup_some onCurve)
          (WeierstrassCurve.Affine.Point.some_ne_zero onCurve)

@[simp]
theorem toGroup_ofGroup (element : CurveGroup) :
    (ofGroup element).toGroup = element := by
  cases element with
  | zero =>
      rfl
  | some x y onCurve =>
      rw [toGroup, dif_pos (isOnCurve_ofGroup_some onCurve)]
      simp [ofGroup_some]

theorem ofGroup_injective : Function.Injective ofGroup :=
  Function.LeftInverse.injective toGroup_ofGroup

theorem toGroup_ne_zero {point : Point} (onCurve : point.isOnCurve) :
    point.toGroup ≠ 0 := by
  rw [← isOnCurve_ofGroup, ofGroup_toGroup onCurve]
  exact onCurve

theorem not_isInfinity_of_isOnCurve {point : Point} (onCurve : point.isOnCurve) :
    point.isInfinity = false := by
  simp only [isOnCurve, Bool.and_eq_true, Bool.not_eq_true'] at onCurve
  exact onCurve.1.2

theorem ne_infinity_of_isOnCurve {point : Point} (onCurve : point.isOnCurve) :
    point ≠ infinity := by
  rintro rfl
  cases not_isInfinity_of_isOnCurve onCurve

@[simp]
theorem isInfinity_ofGroup (element : CurveGroup) :
    (ofGroup element).isInfinity = true ↔ element = 0 := by
  constructor
  · intro infinite
    by_contra nonzero
    have finite :=
      not_isInfinity_of_isOnCurve ((isOnCurve_ofGroup element).mpr nonzero)
    exact Bool.false_ne_true (finite.symm.trans infinite)
  · rintro rfl
    rfl

theorem x_ofGroup_lt (element : CurveGroup) :
    (ofGroup element).x < fieldPrime := by
  cases element with
  | zero =>
      exact fieldPrime_pos
  | some x y onCurve =>
      exact ZMod.val_lt x

theorem y_ofGroup_lt (element : CurveGroup) :
    (ofGroup element).y < fieldPrime := by
  cases element with
  | zero =>
      exact fieldPrime_pos
  | some x y onCurve =>
      exact ZMod.val_lt y

theorem x_ofGroup_eq_zero_iff (element : CurveGroup) :
    (ofGroup element).x = 0 ↔ element = 0 := by
  cases element with
  | zero =>
      exact iff_of_true rfl rfl
  | some x y onCurve =>
      apply iff_of_false
      · exact (ZMod.val_ne_zero x).mpr (x_ne_zero_of_nonsingular onCurve)
      · exact WeierstrassCurve.Affine.Point.some_ne_zero onCurve

theorem y_ofGroup_pos {element : CurveGroup} (nonzero : element ≠ 0) :
    0 < (ofGroup element).y := by
  cases element with
  | zero =>
      exact absurd rfl nonzero
  | some x y onCurve =>
      exact
        Nat.pos_of_ne_zero <|
          (ZMod.val_ne_zero y).mpr (y_ne_zero_of_nonsingular onCurve)

/-- Points over one abscissa are equal or opposite; since no point lies over
zero, this holds for the pair of zeros as well. -/
theorem x_ofGroup_eq_iff (left right : CurveGroup) :
    (ofGroup left).x = (ofGroup right).x ↔ left = right ∨ left = -right := by
  cases left with
  | zero =>
      change 0 = (ofGroup right).x ↔ 0 = right ∨ 0 = -right
      rw [eq_comm, x_ofGroup_eq_zero_iff, eq_comm (a := (0 : CurveGroup)),
        eq_comm (a := (0 : CurveGroup)), neg_eq_zero, or_self]
  | some x₁ y₁ leftOn =>
      cases right with
      | zero =>
          change (ofGroup (.some x₁ y₁ leftOn)).x = 0 ↔
            WeierstrassCurve.Affine.Point.some x₁ y₁ leftOn = 0 ∨
              WeierstrassCurve.Affine.Point.some x₁ y₁ leftOn = -0
          rw [x_ofGroup_eq_zero_iff, neg_zero, or_self]
      | some x₂ y₂ rightOn =>
          rw [← CurveGroup.some_eq_or_eq_neg]
          exact (ZMod.val_injective fieldPrime).eq_iff

theorem x_ofGroup_ne_iff (left right : CurveGroup) :
    (ofGroup left).x ≠ (ofGroup right).x ↔
      left ≠ right ∧ left + right ≠ 0 := by
  rw [ne_eq, x_ofGroup_eq_iff, not_or, eq_neg_iff_add_eq_zero]

/-- Opposite coordinates write the opposite element. -/
theorem neg_ofGroup (element : CurveGroup) :
    (ofGroup element).neg = ofGroup (-element) := by
  cases element with
  | zero =>
      rfl
  | some x y onCurve =>
      have finite :=
        not_isInfinity_of_isOnCurve (isOnCurve_ofGroup_some onCurve)
      rw [neg, if_neg (by simp [finite]),
        WeierstrassCurve.Affine.Point.neg_some, ofGroup_some, ofGroup_some]
      congr 1
      rw [← Coordinate.cast_inj (Coordinate.neg_lt _) (ZMod.val_lt _),
        Coordinate.cast_neg (ZMod.val_lt y), ZMod.natCast_zmod_val,
        ZMod.natCast_zmod_val, negY_curve]

end Point

end WalletKeys.Secp256k1
