import WalletKeys.Ecdsa.Sign
import WalletKeys.Proofs.KeyPair
import WalletKeys.Proofs.OctetNumbers

/-!
# Verification in the group

A signature is accepted if its numbers are in range and the two points that it
makes are neither equal nor opposite and have the right abscissa as their sum.
The test on abscissas alone settles the first two, since no point lies over
the zero that stands for infinity.
-/

namespace WalletKeys.Ecdsa

open Secp256k1

theorem orderBits_eq : orderBits = 256 := by
  decide

/-- The number of a digest is that of its first 32 octets. -/
theorem digestNumber_eq (digest : Octets) :
    digestNumber digest = Octets.toNat (digest.take 32) := by
  have places : 8 * digest.length - orderBits = 8 * (digest.length - 32) := by
    rw [orderBits_eq]
    omega
  have octet : (2 : ℕ) ^ 8 = 256 := by
    norm_num
  rw [digestNumber, places, Octets.toNat_take, Nat.shiftRight_eq_div_pow,
    pow_mul, octet]

theorem digestScalar_lt (digest : Octets) : digestScalar digest < groupOrder :=
  Nat.mod_lt _ groupOrder_pos

/-- How often the generator is taken. -/
def generatorScalar (digest : Octets) (signature : Signature) : ℕ :=
  Modular.mul (digestScalar digest) (Modular.inverse signature.s groupOrder)
    groupOrder

/-- How often the point of the key is taken. -/
def keyScalar (signature : Signature) : ℕ :=
  Modular.mul signature.r (Modular.inverse signature.s groupOrder) groupOrder

theorem generatorScalar_eq (digest : Octets) (signature : Signature) :
    generatorScalar digest signature =
      Octets.toNat (digest.take 32) % groupOrder *
        ((signature.s : ScalarField)⁻¹).val % groupOrder := by
  rw [generatorScalar, Modular.inverse_eq_val two_lt_groupOrder, digestScalar,
    digestNumber_eq, Modular.mul]

theorem keyScalar_eq (signature : Signature) :
    keyScalar signature =
      signature.r * ((signature.s : ScalarField)⁻¹).val % groupOrder := by
  rw [keyScalar, Modular.inverse_eq_val two_lt_groupOrder, Modular.mul]

@[simp]
theorem cast_generatorScalar (digest : Octets) (signature : Signature) :
    (generatorScalar digest signature : ScalarField) =
      digestScalar digest * (signature.s : ScalarField)⁻¹ := by
  rw [generatorScalar, Modular.cast_mul, Modular.cast_inverse two_lt_groupOrder]

@[simp]
theorem cast_keyScalar (signature : Signature) :
    (keyScalar signature : ScalarField) =
      signature.r * (signature.s : ScalarField)⁻¹ := by
  rw [keyScalar, Modular.cast_mul, Modular.cast_inverse two_lt_groupOrder]

theorem inRange_iff (signature : Signature) :
    signature.inRange = true ↔
      (0 < signature.r ∧ signature.r < groupOrder) ∧
        0 < signature.s ∧ signature.s < groupOrder := by
  rw [Signature.inRange, Bool.and_eq_true, inScalarRange_iff,
    inScalarRange_iff]

theorem cast_r_ne_zero_of_inRange {signature : Signature}
    (inRange : signature.inRange = true) :
    (signature.r : ScalarField) ≠ 0 := by
  obtain ⟨⟨positive, bound⟩, -⟩ := (inRange_iff signature).mp inRange
  rw [ne_eq, scalar_cast_eq_zero_iff bound]
  exact positive.ne'

theorem cast_s_ne_zero_of_inRange {signature : Signature}
    (inRange : signature.inRange = true) :
    (signature.s : ScalarField) ≠ 0 := by
  obtain ⟨-, positive, bound⟩ := (inRange_iff signature).mp inRange
  rw [ne_eq, scalar_cast_eq_zero_iff bound]
  exact positive.ne'

/-- Verification in terms of elements. -/
theorem verify_ofGroup {key : PublicKey} {element : CurveGroup}
    (point : key.point = Point.ofGroup element)
    (digest : Octets) (signature : Signature) :
    verify key digest signature = true ↔
      signature.inRange = true ∧
        generatorScalar digest signature • generatorElement ≠
          keyScalar signature • element ∧
        generatorScalar digest signature • generatorElement +
          keyScalar signature • element ≠ 0 ∧
        (Point.ofGroup
          (generatorScalar digest signature • generatorElement +
            keyScalar signature • element)).x % groupOrder = signature.r := by
  unfold verify
  by_cases inRange : signature.inRange = true
  case neg =>
    rw [if_neg inRange]
    exact iff_of_false Bool.false_ne_true fun accepted => inRange accepted.1
  rw [if_pos inRange]
  dsimp only
  rw [← generatorScalar, ← keyScalar, mulGenerator_eq, point, Point.mul_ofGroup,
    Point.add_ofGroup]
  generalize generatorScalar digest signature • generatorElement = left
  generalize keyScalar signature • element = right
  split
  · next shared =>
      apply iff_of_false Bool.false_ne_true
      rintro ⟨-, different, finite, -⟩
      exact (Point.x_ofGroup_ne_iff left right).mpr ⟨different, finite⟩ shared
  · next apart =>
      obtain ⟨different, nonzero⟩ := (Point.x_ofGroup_ne_iff left right).mp apart
      have finite : (Point.ofGroup (left + right)).isInfinity = false := by
        rw [← Bool.not_eq_true, Point.isInfinity_ofGroup]
        exact nonzero
      rw [finite, Bool.not_false, Bool.true_and, beq_iff_eq]
      constructor
      · intro equal
        exact ⟨inRange, different, nonzero, equal⟩
      · rintro ⟨-, -, -, equal⟩
        exact equal

theorem ne_zero_and_x_ofGroup_iff (element : CurveGroup) (r : ℕ) :
    (element ≠ 0 ∧ (Point.ofGroup element).x % groupOrder = r) ↔
      ∃ x y onCurve,
        element = WeierstrassCurve.Affine.Point.some x y onCurve ∧
          x.val % groupOrder = r := by
  constructor
  · rintro ⟨nonzero, equal⟩
    cases element with
    | zero =>
        exact absurd rfl nonzero
    | some x y onCurve =>
        exact ⟨x, y, onCurve, rfl, equal⟩
  · rintro ⟨x, y, onCurve, rfl, equal⟩
    exact ⟨WeierstrassCurve.Affine.Point.some_ne_zero onCurve, equal⟩

/-- Verification is the equation of the standard but for one case: for a key on
the curve and any two numbers, a signature is accepted exactly if its numbers
are in range, the two points differ, and their sum is a finite point whose
abscissa leaves `r`. The test on abscissas refuses exactly the pairs that are
equal or opposite, and behind it the sum is never infinite. -/
theorem verify_eq_true_iff_textbook (key : PublicKey)
    (onCurve : key.point.isOnCurve) (digest : Octets) (signature : Signature) :
    let e := Octets.toNat (digest.take 32) % groupOrder
    let w := ((signature.s : ScalarField)⁻¹).val
    let u₁ := e * w % groupOrder
    let u₂ := signature.r * w % groupOrder
    let left := u₁ • generatorElement
    let right := u₂ • key.point.toGroup
    (verify key digest signature = true ↔
        (1 ≤ signature.r ∧ signature.r < groupOrder) ∧
          (1 ≤ signature.s ∧ signature.s < groupOrder) ∧
          left ≠ right ∧
          ∃ x y sumOn,
            left + right = WeierstrassCurve.Affine.Point.some x y sumOn ∧
              x.val % groupOrder = signature.r) ∧
      ((Point.mulGenerator u₁).x = (key.point.mul u₂).x ↔
        left = right ∨ left = -right) ∧
      ((Point.mulGenerator u₁).x ≠ (key.point.mul u₂).x →
        ((Point.mulGenerator u₁).add (key.point.mul u₂)).isInfinity = false) := by
  intro e w u₁ u₂ left right
  have point : key.point = Point.ofGroup key.point.toGroup :=
    (Point.ofGroup_toGroup onCurve).symm
  have leftPoint : Point.mulGenerator u₁ = Point.ofGroup left :=
    mulGenerator_eq u₁
  have rightPoint : key.point.mul u₂ = Point.ofGroup right := by
    rw [point, Point.mul_ofGroup]
  refine ⟨?_, ?_, ?_⟩
  · have accepted := verify_ofGroup point digest signature
    rw [generatorScalar_eq, keyScalar_eq] at accepted
    rw [accepted, ne_zero_and_x_ofGroup_iff, inRange_iff, and_assoc]
    exact Iff.rfl
  · rw [leftPoint, rightPoint]
    exact Point.x_ofGroup_eq_iff left right
  · rw [leftPoint, rightPoint, Point.x_ofGroup_ne_iff, Point.add_ofGroup,
      ← Bool.not_eq_true, Point.isInfinity_ofGroup]
    exact fun apart => apart.2

/-- The generator as a key, the abscissa of its double as the digest and as both
numbers: the two points are equal, and the signature is refused although their
sum has the right abscissa. -/
theorem verify_refuses_tangent :
    let r := (Point.mulGenerator 2).x
    let key : PublicKey := ⟨Point.generator, true⟩
    key.point.isOnCurve = true ∧
      ((Point.mulGenerator 1).add (key.point.mul 1)).x % groupOrder = r ∧
        verify key (Octets.ofNat 32 r) ⟨r, r, none⟩ = false := by
  intro r key
  have rule :=
    (verify_eq_true_iff_textbook key isOnCurve_generator (Octets.ofNat 32 r)
      ⟨r, r, none⟩).1
  have digestValue :
      Octets.toNat ((Octets.ofNat 32 r).take 32) % groupOrder = r := by
    decide +kernel
  refine ⟨isOnCurve_generator, by decide +kernel, ?_⟩
  rw [Bool.eq_false_iff]
  intro accepted
  have different := (rule.mp accepted).2.2.1
  rw [digestValue] at different
  exact different rfl

end WalletKeys.Ecdsa
