import WalletKeys.Proofs.Secp256k1.Multiple

/-!
# The points as a group

Infinity and the points on the curve are what the elements of the group of the
curve are written as (`Point.inGroup_iff_exists`). Since an element is written
in one way only, the laws of the group hold for the points as equalities of
coordinates (`Point.group_laws`). A multiple is the sum of as many copies, for
scalars of any size (`Point.mul_eq_repeatedSum`).
-/

namespace WalletKeys.Secp256k1.Point

theorem ofGroup_eq_infinity_iff (element : CurveGroup) :
    ofGroup element = infinity ↔ element = 0 := by
  rw [← ofGroup_zero, ofGroup_injective.eq_iff]

/-- Infinity or a point on the curve. -/
def InGroup (point : Point) : Prop :=
  point = infinity ∨ point.isOnCurve = true

theorem inGroup_iff_exists (point : Point) :
    point.InGroup ↔ ∃ element, point = ofGroup element := by
  constructor
  · rintro (infinite | onCurve)
    · exact ⟨0, infinite⟩
    · exact ⟨point.toGroup, (ofGroup_toGroup onCurve).symm⟩
  · rintro ⟨element, rfl⟩
    by_cases zero : element = 0
    · exact Or.inl ((ofGroup_eq_infinity_iff element).mpr zero)
    · exact Or.inr ((isOnCurve_ofGroup element).mpr zero)

section InGroup

variable {left right point : Point}

theorem InGroup.add (leftIn : left.InGroup) (rightIn : right.InGroup) :
    (left.add right).InGroup := by
  obtain ⟨leftElement, rfl⟩ := (inGroup_iff_exists left).mp leftIn
  obtain ⟨rightElement, rfl⟩ := (inGroup_iff_exists right).mp rightIn
  rw [add_ofGroup, inGroup_iff_exists]
  exact ⟨_, rfl⟩

theorem InGroup.neg (inGroup : point.InGroup) : point.neg.InGroup := by
  obtain ⟨element, rfl⟩ := (inGroup_iff_exists point).mp inGroup
  rw [neg_ofGroup, inGroup_iff_exists]
  exact ⟨_, rfl⟩

theorem InGroup.double (inGroup : point.InGroup) : point.double.InGroup := by
  obtain ⟨element, rfl⟩ := (inGroup_iff_exists point).mp inGroup
  rw [double_ofGroup, inGroup_iff_exists]
  exact ⟨_, rfl⟩

theorem InGroup.mul (scalar : ℕ) (inGroup : point.InGroup) :
    (point.mul scalar).InGroup := by
  obtain ⟨element, rfl⟩ := (inGroup_iff_exists point).mp inGroup
  rw [mul_ofGroup, inGroup_iff_exists]
  exact ⟨_, rfl⟩

theorem InGroup.y_lt (inGroup : point.InGroup) : point.y < fieldPrime := by
  obtain ⟨element, rfl⟩ := (inGroup_iff_exists point).mp inGroup
  exact y_ofGroup_lt element

end InGroup

/-- The operations on points are those of an abelian group: they do not leave
it, and its laws hold for the coordinates. -/
theorem group_laws {left middle right : Point} (leftIn : left.InGroup)
    (middleIn : middle.InGroup) (rightIn : right.InGroup) :
    ((left.add middle).InGroup ∧ left.neg.InGroup) ∧
      (left.add middle).add right = left.add (middle.add right) ∧
      left.add middle = middle.add left ∧
      left.add infinity = left ∧
      left.add left.neg = infinity ∧
      left.neg.neg = left ∧
      left.double = left.add left := by
  obtain ⟨leftElement, rfl⟩ := (inGroup_iff_exists left).mp leftIn
  obtain ⟨middleElement, rfl⟩ := (inGroup_iff_exists middle).mp middleIn
  obtain ⟨rightElement, rfl⟩ := (inGroup_iff_exists right).mp rightIn
  refine ⟨⟨?_, ?_⟩, ?_, ?_, ?_, ?_, ?_, ?_⟩
  · rw [add_ofGroup]
    exact (inGroup_iff_exists _).mpr ⟨_, rfl⟩
  · rw [neg_ofGroup]
    exact (inGroup_iff_exists _).mpr ⟨_, rfl⟩
  · simp only [add_ofGroup, add_assoc]
  · rw [add_ofGroup, add_ofGroup, add_comm]
  · rw [← ofGroup_zero, add_ofGroup, add_zero]
  · rw [neg_ofGroup, add_ofGroup, add_neg_cancel, ofGroup_zero]
  · rw [neg_ofGroup, neg_ofGroup, neg_neg]
  · rw [double_ofGroup, add_ofGroup]

/-- The generator, the opposite of its double and the generator again: the
first sum is the opposite of the generator, the whole sum is infinity. -/
theorem group_laws_cancelling :
    let left := generator
    let middle := generator.double.neg
    left.InGroup ∧ middle.InGroup ∧
      left.add middle = left.neg ∧
      (left.add middle).add left = infinity ∧
      (left.add middle).add left = left.add (middle.add left) ∧
      left.neg.neg = left ∧ left.double = left.add left := by
  intro left middle
  have leftIn : left.InGroup :=
    Or.inr isOnCurve_generator
  have middleIn : middle.InGroup :=
    Or.inr (by decide +kernel)
  obtain ⟨-, assoc, -, -, -, twice, double⟩ :=
    group_laws leftIn middleIn leftIn
  exact
    ⟨leftIn, middleIn, by decide +kernel, by decide +kernel, assoc, twice,
      double⟩

/-- Infinity, and `count` times the point added to it. -/
def repeatedSum (point : Point) : ℕ → Point
  | 0 => infinity
  | count + 1 => (repeatedSum point count).add point

theorem repeatedSum_ofGroup (element : CurveGroup) (count : ℕ) :
    repeatedSum (ofGroup element) count = ofGroup (count • element) := by
  induction count with
  | zero =>
      rw [repeatedSum, zero_nsmul, ofGroup_zero]
  | succ count inductionHypothesis =>
      rw [repeatedSum, inductionHypothesis, add_ofGroup, succ_nsmul]

/-- Multiplying is adding as often as the scalar says, which is not reduced:
sums of scalars become sums of points and products become multiples of
multiples. The spare sum of the ladder may be any triple. -/
theorem mul_eq_repeatedSum {point : Point} (inGroup : point.InGroup)
    (scalar left right : ℕ) :
    point.mul scalar = point.repeatedSum scalar ∧
      point.mul 0 = infinity ∧
      point.mul (scalar + 1) = (point.mul scalar).add point ∧
      point.mul (left + right) = (point.mul left).add (point.mul right) ∧
      point.mul (left * right) = (point.mul right).mul left ∧
      ∀ spare : Jacobian,
        (Jacobian.climb (.ofPoint point) scalar (bitLength scalar)
            ⟨.infinity, spare⟩).sum.toPoint =
          point.repeatedSum scalar := by
  obtain ⟨element, rfl⟩ := (inGroup_iff_exists point).mp inGroup
  refine ⟨?_, ?_, ?_, ?_, ?_, ?_⟩
  · rw [mul_ofGroup, repeatedSum_ofGroup]
  · rw [mul_ofGroup, zero_nsmul, ofGroup_zero]
  · rw [mul_ofGroup, mul_ofGroup, add_ofGroup, succ_nsmul]
  · rw [mul_ofGroup, mul_ofGroup, mul_ofGroup, add_ofGroup, add_nsmul]
  · rw [mul_ofGroup, mul_ofGroup, mul_ofGroup, mul_nsmul']
  · intro spare
    rw [repeatedSum_ofGroup]
    exact
      (Jacobian.climb_bitLength_represents (Jacobian.Represents.ofPoint element)
        scalar spare).toPoint_eq

/-- At and beyond the group order: the ladder runs through infinity and equal
points, and the generator comes back. -/
theorem mul_generator_beyond_order :
    generator.InGroup ∧
      generator.repeatedSum groupOrder = infinity ∧
      generator.mul (groupOrder + 1) = generator ∧
      generator.mul (2 * groupOrder) = infinity ∧
      generator.mul (groupOrder + 2) = generator.double := by
  have inGroup : generator.InGroup :=
    Or.inr isOnCurve_generator
  have whole : generator.mul groupOrder = infinity := by
    rw [← mulGenerator, mulGenerator_eq, groupOrder_nsmul_generatorElement,
      ofGroup_zero]
  obtain ⟨repeated, -, successor, sum, -, -⟩ :=
    mul_eq_repeatedSum inGroup groupOrder groupOrder 2
  obtain ⟨-, -, -, -, product, -⟩ :=
    mul_eq_repeatedSum inGroup groupOrder 2 groupOrder
  refine ⟨inGroup, ?_, ?_, ?_, ?_⟩
  · rw [← repeated, whole]
  · rw [successor, whole]
    decide +kernel
  · rw [product, whole]
    decide +kernel
  · rw [sum, whole]
    decide +kernel

end WalletKeys.Secp256k1.Point
