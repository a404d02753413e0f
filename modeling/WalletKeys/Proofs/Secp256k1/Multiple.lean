import Mathlib.GroupTheory.OrderOfElement
import WalletKeys.Proofs.Secp256k1.Triple

/-!
# Multiples of points

The operations on points are those of the group (`add_ofGroup`,
`double_ofGroup`, `mul_ofGroup`): the ladder carries the multiple by the digits
it has gone through, and the spare sum never enters it. The generator has the
group order, so that its multiples are told apart by the class of the scalar
modulo that order.
-/

namespace WalletKeys.Secp256k1

/-- The field of the scalars. -/
abbrev ScalarField := ZMod groupOrder

theorem groupOrder_pos : 0 < groupOrder :=
  prime_groupOrder.pos

theorem two_lt_groupOrder : 2 < groupOrder := by
  decide

theorem scalar_cast_inj {left right : ℕ}
    (leftBound : left < groupOrder) (rightBound : right < groupOrder) :
    (left : ScalarField) = right ↔ left = right := by
  rw [ZMod.natCast_eq_natCast_iff', Nat.mod_eq_of_lt leftBound,
    Nat.mod_eq_of_lt rightBound]

theorem scalar_cast_eq_zero_iff {number : ℕ} (bound : number < groupOrder) :
    (number : ScalarField) = 0 ↔ number = 0 := by
  rw [← Nat.cast_zero]
  exact scalar_cast_inj bound groupOrder_pos

namespace Jacobian

variable {base : Jacobian} {baseElement element : CurveGroup}

/-- Through `count` digits the sum is doubled `count` times, and the number
that these digits write is added in copies of the base. -/
theorem climb_represents (baseRepresents : base.Represents baseElement)
    (scalar count : ℕ) (ladder : Ladder)
    (sumRepresents : ladder.sum.Represents element) :
    (climb base scalar count ladder).sum.Represents
      (2 ^ count • element + (scalar % 2 ^ count) • baseElement) := by
  induction count generalizing ladder element with
  | zero =>
      simpa [climb, Nat.mod_one] using sumRepresents
  | succ count inductionHypothesis =>
      have digits :
          scalar % 2 ^ (count + 1) =
            scalar % 2 ^ count + 2 ^ count * (scalar / 2 ^ count % 2) :=
        Nat.mod_pow_succ
      have doubled := sumRepresents.double
      simp only [climb]
      by_cases digit : scalar.testBit count = true
      · have rest :=
          inductionHypothesis ⟨_, ladder.spare⟩ (doubled.add baseRepresents)
        have value : scalar / 2 ^ count % 2 = 1 := by
          simpa [Nat.testBit_eq_decide_div_mod_eq] using digit
        have total :
            2 ^ count • (element + element + baseElement) +
                (scalar % 2 ^ count) • baseElement =
              2 ^ (count + 1) • element +
                (scalar % 2 ^ (count + 1)) • baseElement := by
          rw [digits, value, mul_one, pow_succ, add_nsmul, mul_nsmul',
            two_nsmul, nsmul_add]
          abel
        rw [if_pos digit, ← total]
        exact rest
      · have rest :=
          inductionHypothesis ⟨_, ladder.spare.add base⟩ doubled
        have value : scalar / 2 ^ count % 2 = 0 := by
          simpa [Nat.testBit_eq_decide_div_mod_eq] using digit
        have total :
            2 ^ count • (element + element) + (scalar % 2 ^ count) • baseElement =
              2 ^ (count + 1) • element +
                (scalar % 2 ^ (count + 1)) • baseElement := by
          rw [digits, value, mul_zero, add_zero, pow_succ, mul_nsmul', two_nsmul]
        rw [if_neg digit, ← total]
        exact rest

/-- The whole ladder reaches the multiple from any spare sum, whether or not
that stands for a point: what is added to the spare sum never enters the
other. -/
theorem climb_bitLength_represents (baseRepresents : base.Represents baseElement)
    (scalar : ℕ) (spare : Jacobian) :
    (climb base scalar (bitLength scalar) ⟨infinity, spare⟩).sum.Represents
      (scalar • baseElement) := by
  have climbed :=
    climb_represents baseRepresents scalar (bitLength scalar)
      ⟨infinity, spare⟩ Represents.infinity
  rw [Nat.mod_eq_of_lt (lt_two_pow_bitLength scalar), nsmul_zero,
    zero_add] at climbed
  exact climbed

theorem Represents.mul (scalar : ℕ) (baseRepresents : base.Represents baseElement) :
    (base.mul scalar).Represents (scalar • baseElement) :=
  climb_bitLength_represents baseRepresents scalar Jacobian.infinity

end Jacobian

namespace Point

theorem add_ofGroup (left right : CurveGroup) :
    (ofGroup left).add (ofGroup right) = ofGroup (left + right) :=
  ((Jacobian.Represents.ofPoint left).add
    (Jacobian.Represents.ofPoint right)).toPoint_eq

theorem double_ofGroup (element : CurveGroup) :
    (ofGroup element).double = ofGroup (element + element) :=
  (Jacobian.Represents.ofPoint element).double.toPoint_eq

theorem mul_ofGroup (scalar : ℕ) (element : CurveGroup) :
    (ofGroup element).mul scalar = ofGroup (scalar • element) :=
  ((Jacobian.Represents.ofPoint element).mul scalar).toPoint_eq

theorem hasGroupOrder_ofGroup (element : CurveGroup) :
    (ofGroup element).hasGroupOrder = true ↔
      element ≠ 0 ∧ groupOrder • element = 0 := by
  rw [hasGroupOrder, mul_ofGroup, Bool.and_eq_true, Bool.not_eq_true',
    isInfinity_ofGroup, ← Bool.not_eq_true, isInfinity_ofGroup]

end Point

/-- The generator as an element of the group. -/
def generatorElement : CurveGroup :=
  Point.generator.toGroup

theorem isOnCurve_generator : Point.generator.isOnCurve := by
  decide

@[simp]
theorem ofGroup_generatorElement :
    Point.ofGroup generatorElement = Point.generator :=
  Point.ofGroup_toGroup isOnCurve_generator

theorem generatorElement_ne_zero : generatorElement ≠ 0 :=
  Point.toGroup_ne_zero isOnCurve_generator

theorem mulGenerator_eq (scalar : ℕ) :
    Point.mulGenerator scalar = Point.ofGroup (scalar • generatorElement) := by
  rw [← Point.mul_ofGroup, ofGroup_generatorElement, Point.mulGenerator]

theorem groupOrder_nsmul_generatorElement :
    groupOrder • generatorElement = 0 := by
  have infinite : Point.mulGenerator groupOrder = Point.infinity := by
    decide +kernel
  rw [mulGenerator_eq, ← Point.ofGroup_zero] at infinite
  exact Point.ofGroup_injective infinite

section Order

variable {element : CurveGroup}

theorem addOrderOf_eq_groupOrder (nonzero : element ≠ 0)
    (order : groupOrder • element = 0) :
    addOrderOf element = groupOrder :=
  addOrderOf_eq_prime order nonzero

/-- Multiples of an element of the group order are told apart by the classes of
their scalars. -/
theorem nsmul_eq_nsmul_iff (nonzero : element ≠ 0)
    (order : groupOrder • element = 0) (left right : ℕ) :
    left • element = right • element ↔
      (left : ScalarField) = right := by
  rw [nsmul_eq_nsmul_iff_modEq, addOrderOf_eq_groupOrder nonzero order,
    ZMod.natCast_eq_natCast_iff]

theorem nsmul_eq_nsmul_of_cast_eq (order : groupOrder • element = 0)
    {left right : ℕ} (same : (left : ScalarField) = right) :
    left • element = right • element := by
  by_cases zero : element = 0
  · rw [zero, nsmul_zero, nsmul_zero]
  · exact (nsmul_eq_nsmul_iff zero order left right).mpr same

theorem nsmul_eq_zero_iff (nonzero : element ≠ 0)
    (order : groupOrder • element = 0) (scalar : ℕ) :
    scalar • element = 0 ↔ (scalar : ScalarField) = 0 := by
  have compared := nsmul_eq_nsmul_iff nonzero order scalar 0
  rwa [zero_nsmul, Nat.cast_zero] at compared

end Order

theorem nsmul_generatorElement_eq_iff (left right : ℕ) :
    left • generatorElement = right • generatorElement ↔
      (left : ScalarField) = right :=
  nsmul_eq_nsmul_iff generatorElement_ne_zero
    groupOrder_nsmul_generatorElement left right

theorem nsmul_generatorElement_eq_zero_iff (scalar : ℕ) :
    scalar • generatorElement = 0 ↔ (scalar : ScalarField) = 0 :=
  nsmul_eq_zero_iff generatorElement_ne_zero
    groupOrder_nsmul_generatorElement scalar

end WalletKeys.Secp256k1
