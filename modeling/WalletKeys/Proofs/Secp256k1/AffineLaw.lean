import WalletKeys.Proofs.Secp256k1.PointGroup

/-!
# Chord and tangent

The textbook sum of two affine points, with its slopes as quotients in the
field of the coordinates, is addition in the group of the curve
(`chordTangentSum_ofGroup`, `tangentDouble_ofGroup`). Triples that satisfy the
scaled equation represent elements of that group, so that the formulas on
triples compute the textbook sum whatever the third coordinates are.
-/

namespace WalletKeys.Secp256k1

namespace Point

/-- Where a line through two points leads: the third point that it has on the
curve, mirrored in the axis. -/
def throughLine (slope : CoordinateField) (left right : Point) : Point :=
  let x : CoordinateField := slope ^ 2 - left.x - right.x
  let y : CoordinateField := slope * (left.x - x) - left.y
  ⟨x.val, y.val⟩

/-- A point added to itself along its tangent; over a point that is its own
opposite there is none. -/
def tangentDouble (point : Point) : Point :=
  if point = infinity ∨ (point.y : CoordinateField) = -point.y then infinity
  else throughLine (3 * point.x ^ 2 / (2 * point.y)) point point

/-- Two points added. Infinity changes nothing, opposite points cancel, equal
points are added along their tangent and all others along their chord. -/
def chordTangentSum (left right : Point) : Point :=
  if left = infinity then right
  else if right = infinity then left
  else if (left.x : CoordinateField) = right.x then
    if (left.y : CoordinateField) = -right.y then infinity
    else tangentDouble left
  else throughLine ((right.y - left.y) / (right.x - left.x)) left right

section Finite

variable {x₁ y₁ x₂ y₂ : CoordinateField}

theorem ofGroup_some_ne_infinity (onCurve : curve.Nonsingular x₁ y₁) :
    ofGroup (.some x₁ y₁ onCurve) ≠ infinity := by
  rw [ne_eq, ofGroup_eq_infinity_iff]
  exact WeierstrassCurve.Affine.Point.some_ne_zero onCurve

theorem throughLine_ofGroup (slope : CoordinateField)
    (left : curve.Nonsingular x₁ y₁) (right : curve.Nonsingular x₂ y₂) :
    throughLine slope (ofGroup (.some x₁ y₁ left)) (ofGroup (.some x₂ y₂ right)) =
      ⟨(slope ^ 2 - x₁ - x₂).val,
        (slope * (x₁ - (slope ^ 2 - x₁ - x₂)) - y₁).val⟩ := by
  simp only [throughLine, ofGroup_some, ZMod.natCast_zmod_val]

theorem tangentDouble_ofGroup_some (onCurve : curve.Nonsingular x₁ y₁) :
    tangentDouble (ofGroup (.some x₁ y₁ onCurve)) =
      if y₁ = -y₁ then infinity
      else
        throughLine (3 * x₁ ^ 2 / (2 * y₁)) (ofGroup (.some x₁ y₁ onCurve))
          (ofGroup (.some x₁ y₁ onCurve)) := by
  have finite := ofGroup_some_ne_infinity onCurve
  simp only [tangentDouble, finite, false_or]
  simp only [ofGroup_some, ZMod.natCast_zmod_val]

theorem chordTangentSum_ofGroup_some
    (left : curve.Nonsingular x₁ y₁) (right : curve.Nonsingular x₂ y₂) :
    chordTangentSum (ofGroup (.some x₁ y₁ left)) (ofGroup (.some x₂ y₂ right)) =
      if x₁ = x₂ then
        if y₁ = -y₂ then infinity
        else tangentDouble (ofGroup (.some x₁ y₁ left))
      else
        throughLine ((y₂ - y₁) / (x₂ - x₁)) (ofGroup (.some x₁ y₁ left))
          (ofGroup (.some x₂ y₂ right)) := by
  rw [chordTangentSum, if_neg (ofGroup_some_ne_infinity left),
    if_neg (ofGroup_some_ne_infinity right)]
  simp only [ofGroup_some, ZMod.natCast_zmod_val]

end Finite

theorem tangentDouble_ofGroup (element : CurveGroup) :
    tangentDouble (ofGroup element) = ofGroup (element + element) := by
  cases element with
  | zero =>
      exact if_pos (Or.inl rfl)
  | some x y onCurve =>
      obtain ⟨slope, x₃, y₃, sumOn, sum, tangent, x₃Eq, y₃Eq⟩ :=
        CurveGroup.some_add_self onCurve
      -- No point has the ordinate zero, so that no tangent is vertical.
      have steep : 2 * y ≠ 0 :=
        mul_ne_zero Coordinate.two_ne_zero (y_ne_zero_of_nonsingular onCurve)
      have notOpposite : y ≠ -y := by
        intro opposite
        apply steep
        linear_combination opposite
      have slopeEq : 3 * x ^ 2 / (2 * y) = slope := by
        rw [div_eq_iff steep, ← tangent]
        ring
      rw [tangentDouble_ofGroup_some, if_neg notOpposite, slopeEq, sum,
        throughLine_ofGroup, ofGroup_some, y₃Eq, x₃Eq, two_mul, sub_sub]

theorem chordTangentSum_ofGroup (left right : CurveGroup) :
    chordTangentSum (ofGroup left) (ofGroup right) = ofGroup (left + right) := by
  cases left with
  | zero =>
      exact (if_pos rfl).trans (congrArg ofGroup (zero_add right).symm)
  | some x₁ y₁ leftOn =>
      cases right with
      | zero =>
          exact
            (if_neg (ofGroup_some_ne_infinity leftOn)).trans (if_pos rfl)
      | some x₂ y₂ rightOn =>
          rw [chordTangentSum_ofGroup_some]
          by_cases sameX : x₁ = x₂
          · rw [if_pos sameX]
            by_cases opposite : y₁ = -y₂
            · have cancelled : y₁ = curve.negY x₂ y₂ := by
                rwa [negY_curve]
              rw [if_pos opposite,
                WeierstrassCurve.Affine.Point.add_of_Y_eq sameX cancelled]
              rfl
            · -- Over one abscissa there are a point and its opposite only.
              have sameY : y₁ = y₂ := by
                apply WeierstrassCurve.Affine.Y_eq_of_Y_ne leftOn.1 rightOn.1 sameX
                rwa [negY_curve]
              subst sameX sameY
              rw [if_neg opposite]
              exact tangentDouble_ofGroup _
          · obtain ⟨slope, x₃, y₃, sumOn, sum, line, x₃Eq, y₃Eq⟩ :=
              CurveGroup.some_add_some_of_x_ne leftOn rightOn sameX
            have gap : x₂ - x₁ ≠ 0 :=
              sub_ne_zero.mpr (Ne.symm sameX)
            have slopeEq : (y₂ - y₁) / (x₂ - x₁) = slope := by
              rw [div_eq_iff gap, line]
              ring
            rw [if_neg sameX, slopeEq, sum, throughLine_ofGroup, ofGroup_some,
              y₃Eq, x₃Eq]

end Point

namespace Jacobian

/-- The triple stands for infinity or for a point on the curve, under any
scaling: its coordinates satisfy the equation in which the scale is multiplied
out. -/
structure IsValid (triple : Jacobian) : Prop where
  reduced : triple.IsReduced
  equation :
    triple.z = 0 ∨
      triple.y ^ 2 ≡ triple.x ^ 3 + 7 * triple.z ^ 6 [MOD fieldPrime]

/-- The coordinates of a finite triple with its scale divided out. -/
theorem IsValid.represents {triple : Jacobian} (valid : triple.IsValid)
    (finite : triple.z ≠ 0) :
    ∃ onCurve,
      triple.Represents
        (.some (triple.x / triple.z ^ 2) (triple.y / triple.z ^ 3) onCurve) := by
  have scale : (triple.z : CoordinateField) ≠ 0 := by
    rwa [ne_eq, Coordinate.cast_eq_zero_iff valid.reduced.z_lt]
  have equation :
      (triple.y : CoordinateField) ^ 2 =
        (triple.x : CoordinateField) ^ 3 + 7 * (triple.z : CoordinateField) ^ 6 := by
    have classes :=
      (ZMod.natCast_eq_natCast_iff _ _ _).mpr
        (valid.equation.resolve_left finite)
    exact_mod_cast classes
  have onCurve :
      curve.Nonsingular (triple.x / triple.z ^ 2 : CoordinateField)
        (triple.y / triple.z ^ 3) := by
    -- The sixth power of the scale is what the two sides differ by.
    rw [nonsingular_iff]
    field_simp
    linear_combination equation
  refine ⟨onCurve, valid.reduced, finite, ?_, ?_⟩
  · rw [div_mul_cancel₀ _ (pow_ne_zero 2 scale)]
  · rw [div_mul_cancel₀ _ (pow_ne_zero 3 scale)]

theorem IsValid.exists_represents {triple : Jacobian} (valid : triple.IsValid) :
    ∃ element, triple.Represents element := by
  by_cases infinite : triple.z = 0
  · exact ⟨0, valid.reduced, infinite⟩
  · obtain ⟨onCurve, represents⟩ := valid.represents infinite
    exact ⟨_, represents⟩

/-- The point of a valid triple: infinity, or the coordinates with the scale
divided out. -/
theorem IsValid.toPoint_eq {triple : Jacobian} (valid : triple.IsValid) :
    triple.toPoint =
      if triple.z = 0 then Point.infinity
      else
        ⟨(triple.x / triple.z ^ 2 : CoordinateField).val,
          (triple.y / triple.z ^ 3 : CoordinateField).val⟩ := by
  split
  · next infinite =>
      have zero : triple.Represents 0 :=
        ⟨valid.reduced, infinite⟩
      exact zero.toPoint_eq
  · next finite =>
      obtain ⟨onCurve, represents⟩ := valid.represents finite
      exact represents.toPoint_eq

/-- A triple becomes the pair of zeros only if it stands for infinity. -/
theorem IsValid.toPoint_eq_zeros_iff {triple : Jacobian}
    (valid : triple.IsValid) : triple.toPoint = ⟨0, 0⟩ ↔ triple.z = 0 := by
  obtain ⟨element, represents⟩ := valid.exists_represents
  have infinite := represents.isInfinity_iff
  rw [isInfinity, beq_iff_eq] at infinite
  rw [represents.toPoint_eq, infinite]
  exact Point.ofGroup_eq_infinity_iff element

/-- Adding and doubling triples is chord and tangent on the points that they
stand for, whatever their third coordinates are and in every special case;
hence adding and doubling points is chord and tangent as well. -/
theorem toPoint_add_eq_chordTangentSum :
    (∀ triple : Jacobian, triple.IsValid →
      triple.toPoint =
          (if triple.z = 0 then Point.infinity
          else
            ⟨(triple.x / triple.z ^ 2 : CoordinateField).val,
              (triple.y / triple.z ^ 3 : CoordinateField).val⟩) ∧
        triple.double.toPoint = Point.tangentDouble triple.toPoint) ∧
      (∀ left right : Jacobian, left.IsValid → right.IsValid →
        (left.add right).toPoint =
          Point.chordTangentSum left.toPoint right.toPoint) ∧
      ∀ left right : Point, left.InGroup → right.InGroup →
        left.add right = Point.chordTangentSum left right ∧
          left.double = Point.tangentDouble left := by
  refine ⟨?_, ?_, ?_⟩
  · intro triple valid
    refine ⟨valid.toPoint_eq, ?_⟩
    obtain ⟨element, represents⟩ := valid.exists_represents
    rw [represents.double.toPoint_eq, represents.toPoint_eq,
      Point.tangentDouble_ofGroup]
  · intro left right leftValid rightValid
    obtain ⟨leftElement, leftRepresents⟩ := leftValid.exists_represents
    obtain ⟨rightElement, rightRepresents⟩ := rightValid.exists_represents
    rw [(leftRepresents.add rightRepresents).toPoint_eq,
      leftRepresents.toPoint_eq, rightRepresents.toPoint_eq,
      Point.chordTangentSum_ofGroup]
  · intro left right leftIn rightIn
    obtain ⟨leftElement, rfl⟩ := (Point.inGroup_iff_exists left).mp leftIn
    obtain ⟨rightElement, rfl⟩ := (Point.inGroup_iff_exists right).mp rightIn
    rw [Point.add_ofGroup, Point.double_ofGroup, Point.chordTangentSum_ofGroup,
      Point.tangentDouble_ofGroup]
    exact ⟨rfl, rfl⟩

/-- Twice the generator under two scalings, the second three times the first:
the triples differ, their points are equal, and their sum is four times the
generator. -/
theorem toPoint_add_rescaled :
    let left := (ofPoint Point.generator).double
    let right : Jacobian :=
      ⟨Coordinate.mul 9 left.x, Coordinate.mul 27 left.y,
        Coordinate.mul 3 left.z⟩
    left.IsValid ∧ right.IsValid ∧ left.z ≠ right.z ∧
      left.toPoint = right.toPoint ∧
        (left.add right).toPoint =
          Point.chordTangentSum left.toPoint right.toPoint ∧
        (left.add right).toPoint = Point.mulGenerator 4 := by
  intro left right
  have leftValid : left.IsValid :=
    ⟨⟨by decide, by decide, by decide⟩, by decide⟩
  have rightValid : right.IsValid :=
    ⟨⟨by decide, by decide, by decide⟩, by decide⟩
  refine ⟨leftValid, rightValid, by decide +kernel, by decide +kernel, ?_, ?_⟩
  · exact toPoint_add_eq_chordTangentSum.2.1 left right leftValid rightValid
  · decide +kernel

end Jacobian

end WalletKeys.Secp256k1
