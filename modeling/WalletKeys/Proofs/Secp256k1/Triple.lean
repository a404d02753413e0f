import WalletKeys.Proofs.Secp256k1.Group
import WalletKeys.Secp256k1.Jacobian

/-!
# Triples and the group

A triple of coordinates represents an element of the group if its third number
is zero and the element is infinity, or if its first two are the coordinates
of the element scaled by the square and the cube of the third. Doubling and
adding triples represent doubling and adding elements, whatever the third
numbers are; the way back to a point forgets them.
-/

namespace WalletKeys.Secp256k1

/-! ## The formulas

The numbers `x * z ^ 2` and `y * z ^ 3` stand for the coordinates `x` and `y`.
Slopes are given by their defining equations, so that nothing is divided. -/

section Formulas

variable {R : Type*} [CommRing R] {x y x₁ y₁ x₂ y₂ slope z : R}

theorem tangent_x (tangent : 2 * y * slope = 3 * x ^ 2) :
    (3 * (x * z ^ 2) ^ 2) ^ 2 - 8 * (x * z ^ 2) * (y * z ^ 3) ^ 2 =
      (slope ^ 2 - 2 * x) * (2 * (y * z ^ 3) * z) ^ 2 := by
  linear_combination (-z ^ 8 * (2 * y * slope + 3 * x ^ 2)) * tangent

theorem tangent_y (tangent : 2 * y * slope = 3 * x ^ 2) :
    3 * (x * z ^ 2) ^ 2 *
          (4 * (x * z ^ 2) * (y * z ^ 3) ^ 2 -
            ((3 * (x * z ^ 2) ^ 2) ^ 2 - 8 * (x * z ^ 2) * (y * z ^ 3) ^ 2)) -
        8 * (y * z ^ 3) ^ 4 =
      (slope * (x - (slope ^ 2 - 2 * x)) - y) * (2 * (y * z ^ 3) * z) ^ 3 := by
  linear_combination
    (-z ^ 12 *
      (12 * x * y ^ 2 - 9 * x ^ 4 - 6 * x ^ 2 * y * slope - 4 * y ^ 2 * slope ^ 2)) *
      tangent

theorem chord_x (line : y₂ = y₁ + slope * (x₂ - x₁)) :
    (2 * (z ^ 3 * (y₂ - y₁))) ^ 2 -
          z ^ 2 * (x₂ - x₁) * (2 * (z ^ 2 * (x₂ - x₁))) ^ 2 -
        2 * (z ^ 2 * x₁ * (2 * (z ^ 2 * (x₂ - x₁))) ^ 2) =
      (slope ^ 2 - x₁ - x₂) * (2 * z * (z ^ 2 * (x₂ - x₁))) ^ 2 := by
  rw [line]
  ring

theorem chord_y (line : y₂ = y₁ + slope * (x₂ - x₁)) (x₃ : R) :
    2 * (z ^ 3 * (y₂ - y₁)) *
          (z ^ 2 * x₁ * (2 * (z ^ 2 * (x₂ - x₁))) ^ 2 -
            x₃ * (2 * z * (z ^ 2 * (x₂ - x₁))) ^ 2) -
        2 * (z ^ 3 * y₁ * (z ^ 2 * (x₂ - x₁) * (2 * (z ^ 2 * (x₂ - x₁))) ^ 2)) =
      (slope * (x₁ - x₃) - y₁) * (2 * z * (z ^ 2 * (x₂ - x₁))) ^ 3 := by
  rw [line]
  ring

end Formulas

namespace Jacobian

/-- All three numbers are coordinates. -/
structure IsReduced (triple : Jacobian) : Prop where
  x_lt : triple.x < fieldPrime
  y_lt : triple.y < fieldPrime
  z_lt : triple.z < fieldPrime

/-- The triple stands for the element, under any scaling. -/
def Represents (triple : Jacobian) (element : CurveGroup) : Prop :=
  triple.IsReduced ∧
    match element with
    | .zero => triple.z = 0
    | .some x y _ =>
        triple.z ≠ 0 ∧
          (triple.x : CoordinateField) = x * triple.z ^ 2 ∧
          (triple.y : CoordinateField) = y * triple.z ^ 3

namespace Represents

variable {triple : Jacobian} {element : CurveGroup}

theorem isInfinity_iff (represents : triple.Represents element) :
    triple.isInfinity = true ↔ element = 0 := by
  unfold isInfinity
  rw [beq_iff_eq]
  cases element with
  | zero =>
      exact iff_of_true represents.2 rfl
  | some x y onCurve =>
      exact
        iff_of_false represents.2.1
          (WeierstrassCurve.Affine.Point.some_ne_zero onCurve)

theorem z_ne_zero {x y : CoordinateField} {onCurve : curve.Nonsingular x y}
    (represents : triple.Represents (.some x y onCurve)) :
    (triple.z : CoordinateField) ≠ 0 := by
  rw [ne_eq, Coordinate.cast_eq_zero_iff represents.1.z_lt]
  exact represents.2.1

theorem infinity : Jacobian.infinity.Represents 0 :=
  ⟨⟨by decide, by decide, fieldPrime_pos⟩, rfl⟩

/-- A point is scaled by one. -/
theorem ofPoint (element : CurveGroup) :
    (ofPoint (Point.ofGroup element)).Represents element := by
  unfold Jacobian.ofPoint
  split
  · next infinite =>
      rw [(Point.isInfinity_ofGroup element).mp infinite]
      exact infinity
  · next finite =>
      rw [Point.isInfinity_ofGroup] at finite
      refine
        ⟨⟨Point.x_ofGroup_lt element, Point.y_ofGroup_lt element,
          prime_fieldPrime.one_lt⟩, ?_⟩
      cases element with
      | zero =>
          exact absurd rfl finite
      | some x y onCurve =>
          refine ⟨Nat.one_ne_zero, ?_, ?_⟩
          · simp [Point.ofGroup_some]
          · simp [Point.ofGroup_some]

/-- The point of a triple is that of its element. -/
theorem toPoint_eq (represents : triple.Represents element) :
    triple.toPoint = Point.ofGroup element := by
  unfold toPoint
  split
  · next infinite =>
      rw [represents.isInfinity_iff.mp infinite]
      rfl
  · next finite =>
      rw [represents.isInfinity_iff] at finite
      cases element with
      | zero =>
          exact absurd rfl finite
      | some x y onCurve =>
          have z := represents.z_ne_zero
          obtain ⟨_, _, xScaled, yScaled⟩ := represents
          rw [Point.ofGroup_some]
          simp only [Point.mk.injEq]
          constructor
          · rw [← Coordinate.cast_inj (Coordinate.mul_lt _ _) (ZMod.val_lt x)]
            simp only [Coordinate.cast_mul, Coordinate.cast_inverse,
              ZMod.natCast_zmod_val, xScaled]
            field_simp
          · rw [← Coordinate.cast_inj (Coordinate.mul_lt _ _) (ZMod.val_lt y)]
            simp only [Coordinate.cast_mul, Coordinate.cast_inverse,
              ZMod.natCast_zmod_val, yScaled]
            field_simp

theorem double (represents : triple.Represents element) :
    triple.double.Represents (element + element) := by
  cases element with
  | zero =>
      have infinite : triple.isInfinity = true :=
        represents.isInfinity_iff.mpr rfl
      unfold Jacobian.double
      rw [if_pos (by simp [infinite])]
      exact infinity
  | some x y onCurve =>
      obtain ⟨slope, x₃, y₃, sumOn, sum, tangent, x₃Eq, y₃Eq⟩ :=
        CurveGroup.some_add_self onCurve
      have z := represents.z_ne_zero
      obtain ⟨reduced, zNumber, xScaled, yScaled⟩ := represents
      have yNonzero : (triple.y : CoordinateField) ≠ 0 := by
        rw [yScaled]
        exact mul_ne_zero (y_ne_zero_of_nonsingular onCurve) (pow_ne_zero 3 z)
      have yNumber : triple.y ≠ 0 := by
        rwa [ne_eq, ← Coordinate.cast_eq_zero_iff reduced.y_lt]
      have finite : ¬(triple.isInfinity || triple.y == 0) = true := by
        simp [isInfinity, zNumber, yNumber]
      unfold Jacobian.double
      rw [if_neg finite, sum]
      dsimp only
      refine ⟨⟨?_, ?_, ?_⟩, ?_, ?_, ?_⟩
      · simp
      · simp
      · simp
      · rw [ne_eq, ← Coordinate.cast_eq_zero_iff (by simp)]
        simp only [Coordinate.cast_add, Coordinate.cast_mul]
        rw [← two_mul]
        exact
          mul_ne_zero Coordinate.two_ne_zero (mul_ne_zero yNonzero z)
      · rw [x₃Eq]
        simp (disch := simp) only [Coordinate.cast_add, Coordinate.cast_mul,
          Coordinate.cast_sub, xScaled, yScaled]
        linear_combination tangent_x (z := (triple.z : CoordinateField)) tangent
      · rw [y₃Eq, x₃Eq]
        simp (disch := simp) only [Coordinate.cast_add, Coordinate.cast_mul,
          Coordinate.cast_sub, xScaled, yScaled, Nat.cast_ofNat]
        linear_combination tangent_y (z := (triple.z : CoordinateField)) tangent

end Represents

/-! ## Adding

Both abscissas are brought to one scale, and so are both second coordinates;
their differences decide whether the chord exists. -/

/-- The difference of the abscissas on a common scale. -/
def run (left right : Jacobian) : ℕ :=
  Coordinate.sub
    (Coordinate.mul right.x (Coordinate.mul left.z left.z))
    (Coordinate.mul left.x (Coordinate.mul right.z right.z))

/-- The difference of the second coordinates on a common scale. -/
def rise (left right : Jacobian) : ℕ :=
  Coordinate.sub
    (Coordinate.mul (Coordinate.mul right.y left.z) (Coordinate.mul left.z left.z))
    (Coordinate.mul (Coordinate.mul left.y right.z) (Coordinate.mul right.z right.z))

/-- The sum along a chord that is not vertical. -/
def chord (left right : Jacobian) : Jacobian :=
  let leftSquare := Coordinate.mul left.z left.z
  let rightSquare := Coordinate.mul right.z right.z
  let slope := Coordinate.add (rise left right) (rise left right)
  let twice := Coordinate.add (run left right) (run left right)
  let scale := Coordinate.mul twice twice
  let cubic := Coordinate.mul (run left right) scale
  let base := Coordinate.mul (Coordinate.mul left.x rightSquare) scale
  let x :=
    Coordinate.sub (Coordinate.sub (Coordinate.mul slope slope) cubic)
      (Coordinate.add base base)
  let lift :=
    Coordinate.mul (Coordinate.mul (Coordinate.mul left.y right.z) rightSquare) cubic
  let y :=
    Coordinate.sub (Coordinate.mul slope (Coordinate.sub base x))
      (Coordinate.add lift lift)
  let sum := Coordinate.add left.z right.z
  let z :=
    Coordinate.mul
      (Coordinate.sub (Coordinate.sub (Coordinate.mul sum sum) leftSquare) rightSquare)
      (run left right)
  ⟨x, y, z⟩

theorem add_of_finite {left right : Jacobian}
    (leftFinite : left.z ≠ 0) (rightFinite : right.z ≠ 0) :
    left.add right =
      if run left right == 0 then
        if rise left right == 0 then left.double else infinity
      else chord left right := by
  rw [add, if_neg (by simpa [isInfinity] using leftFinite),
    if_neg (by simpa [isInfinity] using rightFinite)]
  rfl

theorem run_lt (left right : Jacobian) : run left right < fieldPrime :=
  Coordinate.sub_lt (Coordinate.mul_lt _ _)

theorem rise_lt (left right : Jacobian) : rise left right < fieldPrime :=
  Coordinate.sub_lt (Coordinate.mul_lt _ _)

section Scaled

variable {left right : Jacobian} {x₁ y₁ x₂ y₂ slope : CoordinateField}
  (leftX : (left.x : CoordinateField) = x₁ * left.z ^ 2)
  (leftY : (left.y : CoordinateField) = y₁ * left.z ^ 3)
  (rightX : (right.x : CoordinateField) = x₂ * right.z ^ 2)
  (rightY : (right.y : CoordinateField) = y₂ * right.z ^ 3)

include leftX rightX in
theorem cast_run :
    (run left right : CoordinateField) =
      (left.z * right.z : CoordinateField) ^ 2 * (x₂ - x₁) := by
  rw [run, Coordinate.cast_sub (Coordinate.mul_lt _ _)]
  simp only [Coordinate.cast_mul, leftX, rightX]
  ring

include leftY rightY in
theorem cast_rise :
    (rise left right : CoordinateField) =
      (left.z * right.z : CoordinateField) ^ 3 * (y₂ - y₁) := by
  rw [rise, Coordinate.cast_sub (Coordinate.mul_lt _ _)]
  simp only [Coordinate.cast_mul, leftY, rightY]
  ring

theorem isReduced_chord (left right : Jacobian) : (chord left right).IsReduced := by
  constructor <;> simp [chord]

include leftX rightX in
theorem cast_z_chord :
    ((chord left right).z : CoordinateField) =
      2 * (left.z * right.z) *
        ((left.z * right.z : CoordinateField) ^ 2 * (x₂ - x₁)) := by
  simp (disch := simp) only [chord, Coordinate.cast_add, Coordinate.cast_mul,
    Coordinate.cast_sub, cast_run leftX rightX]
  ring

include leftX leftY rightX rightY in
theorem cast_x_chord (line : y₂ = y₁ + slope * (x₂ - x₁)) :
    ((chord left right).x : CoordinateField) =
      (slope ^ 2 - x₁ - x₂) * (chord left right).z ^ 2 := by
  rw [cast_z_chord leftX rightX, ← chord_x line]
  simp (disch := simp) only [chord, Coordinate.cast_add, Coordinate.cast_mul,
    Coordinate.cast_sub, cast_run leftX rightX, cast_rise leftY rightY, leftX]
  ring

include leftX leftY rightX rightY in
theorem cast_y_chord (line : y₂ = y₁ + slope * (x₂ - x₁)) :
    ((chord left right).y : CoordinateField) =
      (slope * (x₁ - (slope ^ 2 - x₁ - x₂)) - y₁) * (chord left right).z ^ 3 := by
  have xSum := cast_x_chord leftX leftY rightX rightY line
  have ySum :
      ((chord left right).y : CoordinateField) =
        2 * rise left right *
            (left.x * (right.z * right.z) * (2 * run left right) ^ 2 -
              (chord left right).x) -
          2 * (left.y * right.z * (right.z * right.z) *
            (run left right * (2 * run left right) ^ 2)) := by
    simp (disch := simp [chord]) only [chord, Coordinate.cast_add,
      Coordinate.cast_mul, Coordinate.cast_sub]
    ring
  rw [ySum, xSum, cast_z_chord leftX rightX, ← chord_y line,
    cast_run leftX rightX, cast_rise leftY rightY, leftX, leftY]
  ring

end Scaled

namespace Represents

variable {left right : Jacobian} {leftElement rightElement : CurveGroup}

/-- Along a chord that is not vertical the sum is finite. -/
theorem chord_represents {x₁ y₁ x₂ y₂ : CoordinateField}
    {leftOn : curve.Nonsingular x₁ y₁} {rightOn : curve.Nonsingular x₂ y₂}
    (leftRepresents : left.Represents (.some x₁ y₁ leftOn))
    (rightRepresents : right.Represents (.some x₂ y₂ rightOn))
    (different : x₁ ≠ x₂) :
    (chord left right).Represents
      (WeierstrassCurve.Affine.Point.some x₁ y₁ leftOn +
        WeierstrassCurve.Affine.Point.some x₂ y₂ rightOn) := by
  obtain ⟨slope, x₃, y₃, sumOn, sum, line, x₃Eq, y₃Eq⟩ :=
    CurveGroup.some_add_some_of_x_ne leftOn rightOn different
  have scale : (left.z * right.z : CoordinateField) ≠ 0 :=
    mul_ne_zero leftRepresents.z_ne_zero rightRepresents.z_ne_zero
  have reduced := isReduced_chord left right
  obtain ⟨_, _, leftX, leftY⟩ := leftRepresents
  obtain ⟨_, _, rightX, rightY⟩ := rightRepresents
  rw [sum]
  refine ⟨reduced, ?_, ?_, ?_⟩
  · rw [ne_eq, ← Coordinate.cast_eq_zero_iff reduced.z_lt,
      cast_z_chord leftX rightX]
    exact
      mul_ne_zero (mul_ne_zero Coordinate.two_ne_zero scale) <|
        mul_ne_zero (pow_ne_zero 2 scale) (sub_ne_zero.mpr different.symm)
  · rw [x₃Eq]
    exact cast_x_chord leftX leftY rightX rightY line
  · rw [y₃Eq, x₃Eq]
    exact cast_y_chord leftX leftY rightX rightY line

/-- Adding triples represents adding elements, in all special cases: either
operand infinite, equal elements under different scalings, opposite ones. -/
theorem add (leftRepresents : left.Represents leftElement)
    (rightRepresents : right.Represents rightElement) :
    (left.add right).Represents (leftElement + rightElement) := by
  cases leftElement with
  | zero =>
      rw [Jacobian.add, if_pos (leftRepresents.isInfinity_iff.mpr rfl)]
      exact (zero_add rightElement).symm ▸ rightRepresents
  | some x₁ y₁ leftOn =>
      have leftFinite : left.z ≠ 0 :=
        leftRepresents.2.1
      cases rightElement with
      | zero =>
          rw [Jacobian.add, if_neg (by simpa [isInfinity] using leftFinite),
            if_pos (rightRepresents.isInfinity_iff.mpr rfl)]
          exact leftRepresents
      | some x₂ y₂ rightOn =>
          have rightFinite : right.z ≠ 0 :=
            rightRepresents.2.1
          have scale : (left.z * right.z : CoordinateField) ≠ 0 :=
            mul_ne_zero leftRepresents.z_ne_zero rightRepresents.z_ne_zero
          have runCast :=
            cast_run leftRepresents.2.2.1 rightRepresents.2.2.1
          have riseCast :=
            cast_rise leftRepresents.2.2.2 rightRepresents.2.2.2
          have runZero : run left right = 0 ↔ x₁ = x₂ := by
            rw [← Coordinate.cast_eq_zero_iff (run_lt left right), runCast,
              mul_eq_zero_iff_left (pow_ne_zero 2 scale), sub_eq_zero, eq_comm]
          have riseZero : rise left right = 0 ↔ y₁ = y₂ := by
            rw [← Coordinate.cast_eq_zero_iff (rise_lt left right), riseCast,
              mul_eq_zero_iff_left (pow_ne_zero 3 scale), sub_eq_zero, eq_comm]
          rw [add_of_finite leftFinite rightFinite]
          by_cases sameX : x₁ = x₂
          · rw [if_pos (beq_iff_eq.mpr (runZero.mpr sameX))]
            by_cases sameY : y₁ = y₂
            · subst sameX sameY
              rw [if_pos (beq_iff_eq.mpr (riseZero.mpr rfl))]
              exact leftRepresents.double
            · have opposite : y₁ = curve.negY x₂ y₂ :=
                (WeierstrassCurve.Affine.Y_eq_of_X_eq leftOn.1 rightOn.1
                  sameX).resolve_left sameY
              rw [if_neg (by simpa using riseZero.not.mpr sameY),
                WeierstrassCurve.Affine.Point.add_of_Y_eq sameX opposite]
              exact infinity
          · rw [if_neg (by simpa using runZero.not.mpr sameX)]
            exact chord_represents leftRepresents rightRepresents sameX

end Represents

end Jacobian

end WalletKeys.Secp256k1
