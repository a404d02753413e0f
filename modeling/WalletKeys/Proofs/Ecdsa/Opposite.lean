import WalletKeys.Proofs.Ecdsa.Recovery
import WalletKeys.Proofs.Ecdsa.Verification

/-!
# Opposite signatures

The second number of a signature may be replaced by its opposite modulo the group order. The nonce
then has the opposite point, which is over the same abscissa and of the other parity, so that the
number of the recovery id changes in its lowest bit (`Ecdsa.noncePoint_opposite`). The key that
follows stays the same, and so does every refusal (`Ecdsa.recover_opposite`). The two points of
verification both turn into their opposites (`Ecdsa.verify_opposite`).
-/

namespace WalletKeys

open Secp256k1

namespace Secp256k1

/-- Scalars that cancel lead to elements that cancel. -/
theorem nsmul_eq_neg_nsmul_of_cast_eq_neg {element : CurveGroup}
    (order : groupOrder • element = 0) {left right : ℕ}
    (opposite : (left : ScalarField) = -right) :
    left • element = -(right • element) := by
  have cancelled : ((left + right : ℕ) : ScalarField) = (0 : ℕ) := by
    rw [Nat.cast_add, opposite, neg_add_cancel, Nat.cast_zero]
  rw [eq_neg_iff_add_eq_zero, ← add_nsmul, nsmul_eq_nsmul_of_cast_eq order cancelled, zero_nsmul]

theorem Point.x_ofGroup_neg (element : CurveGroup) :
    (ofGroup (-element)).x = (ofGroup element).x :=
  (x_ofGroup_eq_iff (-element) element).mpr (Or.inr rfl)

theorem Point.hasGroupOrder_ofGroup_neg (element : CurveGroup) :
    (ofGroup (-element)).hasGroupOrder = (ofGroup element).hasGroupOrder := by
  rw [Bool.eq_iff_iff, hasGroupOrder_ofGroup, hasGroupOrder_ofGroup, neg_ne_zero, neg_nsmul,
    neg_eq_zero]

end Secp256k1

namespace RecoveryId

/-- Names the other one of the two points over an abscissa. -/
def opposite (id : RecoveryId) : RecoveryId :=
  ⟨!id.odd, id.reduced⟩

theorem ofNat?_xor_one {number : UInt8} (small : number ≤ 3) :
    ofNat? (number ^^^ 1).toNat = (ofNat? number.toNat).map opposite := by
  have value : number = UInt8.ofNat number.toNat :=
    (UInt8.ofNat_toNat).symm
  have bound : number.toNat ≤ 3 :=
    UInt8.le_iff_toNat_le.mp small
  generalize number.toNat = count at value bound
  subst value
  interval_cases count <;> rfl

end RecoveryId

namespace Signature

/-- The first numbers are the same, and the second one is what the other lacks to the group order.
-/
structure IsOpposite (left right : Signature) : Prop where
  r_eq : left.r = right.r
  s_eq : left.s = groupOrder - right.s

variable {left right : Signature}

/-- Numbers out of range have opposites that are out of range, since a difference stops at zero. -/
theorem IsOpposite.inRange_eq (opposite : left.IsOpposite right) :
    left.inRange = right.inRange := by
  obtain ⟨sameR, difference⟩ := opposite
  rw [Bool.eq_iff_iff, Ecdsa.inRange_iff, Ecdsa.inRange_iff, sameR, difference]
  omega

theorem IsOpposite.cast_s (opposite : left.IsOpposite right) (inRange : right.inRange = true) :
    (left.s : ScalarField) = -right.s := by
  obtain ⟨-, -, bound⟩ := (Ecdsa.inRange_iff right).mp inRange
  rw [opposite.s_eq, Nat.cast_sub bound.le, ZMod.natCast_self, zero_sub]

theorem IsOpposite.abscissa_eq (opposite : left.IsOpposite right) (id : RecoveryId) :
    id.opposite.abscissa left = id.abscissa right := by
  rw [RecoveryId.abscissa, RecoveryId.abscissa, opposite.r_eq]
  rfl

end Signature

namespace Ecdsa

variable {left right : Signature}

/-- The opposite id and signature lead to the opposite point, and fail where the others do. -/
theorem noncePoint_opposite (opposite : left.IsOpposite right) (id : RecoveryId) :
    noncePoint id.opposite left = (noncePoint id right).map Point.neg := by
  have sameAbscissa := opposite.abscissa_eq id
  cases found : Coordinate.solve? (id.abscissa right) with
  | none =>
      rw [noncePoint_eq, noncePoint_eq, sameAbscissa, found]
      rfl
  | some y =>
      have otherFound : Coordinate.solve? (id.opposite.abscissa left) = some y := by
        rw [sameAbscissa]
        exact found
      obtain ⟨element, nonzero, point, parity⟩ :=
        Point.exists_ofGroup_of_solve? id.odd found
      obtain ⟨other, otherNonzero, otherPoint, otherParity⟩ :=
        Point.exists_ofGroup_of_solve? id.opposite.odd otherFound
      have negative : other = -element := by
        apply Point.eq_of_x_eq_of_isOdd_eq
        · rw [otherPoint, Point.x_ofGroup_neg, point]
          exact sameAbscissa
        · rw [otherParity, Point.isOdd_neg nonzero, parity]
          rfl
      subst negative
      rw [noncePoint_of_solve? otherFound otherNonzero otherPoint,
        noncePoint_of_solve? found nonzero point, Point.hasGroupOrder_ofGroup_neg,
        ← Point.neg_ofGroup]
      split <;> rfl

/-- The key that follows is the same, since both factors of the nonce's part change their sign. -/
theorem keyElement_opposite (opposite : left.IsOpposite right) (inRange : right.inRange = true)
    {element : CurveGroup} (order : groupOrder • element = 0) (digest : Octets) :
    keyElement (-element) left digest = keyElement element right digest := by
  have scalars :
      (Modular.mul left.s (Modular.inverse right.r groupOrder) groupOrder : ScalarField) =
        -Modular.mul right.s (Modular.inverse right.r groupOrder) groupOrder := by
    rw [Modular.cast_mul, Modular.cast_mul, opposite.cast_s inRange, neg_mul]
  rw [keyElement, keyElement, opposite.r_eq, neg_nsmul,
    nsmul_eq_neg_nsmul_of_cast_eq_neg order scalars, neg_neg]

theorem recover_opposite (opposite : left.IsOpposite right) (id : RecoveryId)
    (digest : Octets) :
    recover id.opposite left digest = recover id right digest := by
  rw [recover_eq, recover_eq, opposite.inRange_eq, noncePoint_opposite opposite]
  split
  · next inRange =>
      cases nonce : noncePoint id right with
      | error failure =>
          have refused (next : Point → Except WalletError PublicKey) :
              (Except.error failure >>= next) = .error failure :=
            rfl
          rw [Except.map, refused, refused]
      | ok point =>
          obtain ⟨element, names, rfl⟩ := exists_names_of_noncePoint nonce
          have sameKey :
              keyPoint (Point.ofGroup element).neg left digest =
                keyPoint (Point.ofGroup element) right digest := by
            rw [Point.neg_ofGroup, keyPoint_ofGroup, keyPoint_ofGroup,
              keyElement_opposite opposite inRange names.order]
          rw [Except.map, ok_bind, ok_bind, sameKey]
  · rfl

theorem recoverNumbered_opposite (opposite : left.IsOpposite right) {number : UInt8}
    (small : number ≤ 3) (digest : Octets) :
    recoverNumbered (number ^^^ 1) left digest = recoverNumbered number right digest := by
  rw [recoverNumbered, recoverNumbered, RecoveryId.ofNat?_xor_one small]
  cases named : RecoveryId.ofNat? number.toNat with
  | none =>
      have bound : number.toNat < 4 :=
        Nat.lt_succ_of_le (UInt8.le_iff_toNat_le.mp small)
      rw [RecoveryId.ofNat?, if_pos bound] at named
      cases named
  | some id =>
      exact recover_opposite opposite id digest

theorem cast_generatorScalar_opposite (opposite : left.IsOpposite right)
    (inRange : right.inRange = true) (digest : Octets) :
    (generatorScalar digest left : ScalarField) = -generatorScalar digest right := by
  rw [cast_generatorScalar, cast_generatorScalar, opposite.cast_s inRange, inv_neg, mul_neg]

theorem cast_keyScalar_opposite (opposite : left.IsOpposite right)
    (inRange : right.inRange = true) :
    (keyScalar left : ScalarField) = -keyScalar right := by
  rw [cast_keyScalar, cast_keyScalar, opposite.cast_s inRange, opposite.r_eq, inv_neg, mul_neg]

/-- Both points of verification turn into their opposites, and so does their sum, which keeps its
abscissa. -/
theorem verify_opposite (opposite : left.IsOpposite right) {key : PublicKey}
    (onCurve : key.point.isOnCurve = true) (ordered : key.point.hasGroupOrder = true)
    (digest : Octets) :
    verify key digest left = verify key digest right := by
  have point : key.point = Point.ofGroup key.point.toGroup :=
    (Point.ofGroup_toGroup onCurve).symm
  have order : groupOrder • key.point.toGroup = 0 := by
    rw [point, Point.hasGroupOrder_ofGroup] at ordered
    exact ordered.2
  rw [Bool.eq_iff_iff, verify_ofGroup point, verify_ofGroup point, opposite.inRange_eq,
    opposite.r_eq]
  apply and_congr_right
  intro inRange
  have generatorPart :=
    nsmul_eq_neg_nsmul_of_cast_eq_neg groupOrder_nsmul_generatorElement
      (cast_generatorScalar_opposite opposite inRange digest)
  have keyPart :=
    nsmul_eq_neg_nsmul_of_cast_eq_neg order (cast_keyScalar_opposite opposite inRange)
  rw [generatorPart, keyPart, ← neg_add, neg_ne_zero, ne_eq, neg_inj,
    Point.x_ofGroup_neg]

/-- Recovery and verification do not tell a signature from the one with the opposite second number,
which recovery reads under the number with the other lowest bit. Whatever the two numbers are, the
same key is recovered, or the same refusal given, and a key of the group order accepts both or
neither. -/
theorem opposites_agree (r s : ℕ) (digest : Octets) (stored recorded : Option RecoveryId) :
    (∀ number : UInt8, number ≤ 3 →
      recoverNumbered (number ^^^ 1) ⟨r, groupOrder - s, stored⟩ digest =
        recoverNumbered number ⟨r, s, recorded⟩ digest) ∧
      ∀ key : PublicKey, key.point.isOnCurve = true → key.point.hasGroupOrder = true →
        verify key digest ⟨r, groupOrder - s, stored⟩ =
          verify key digest ⟨r, s, recorded⟩ := by
  have opposite :
      Signature.IsOpposite ⟨r, groupOrder - s, stored⟩ ⟨r, s, recorded⟩ :=
    ⟨rfl, rfl⟩
  constructor
  · intro number small
    exact recoverNumbered_opposite opposite small digest
  · intro key onCurve ordered
    exact verify_opposite opposite onCurve ordered digest

/-- The generator signs the empty digest with itself as the point of the nonce, and its opposite
leads back to it under the number one; both are accepted. No point lies over five, for which both
are refused. -/
theorem opposites_agree_generator :
    let r := Point.generator.x
    let key : PublicKey := ⟨Point.generator, true⟩
    key.point.isOnCurve = true ∧ key.point.hasGroupOrder = true ∧
      recoverNumbered 0 ⟨r, r, none⟩ [] = .ok key ∧
      recoverNumbered 1 ⟨r, groupOrder - r, none⟩ [] = .ok key ∧
      verify key [] ⟨r, groupOrder - r, none⟩ = true ∧
      recoverNumbered 1 ⟨5, groupOrder - 1, none⟩ [] = .error .noRecovery := by
  intro r key
  have recovered : recoverNumbered 0 ⟨r, r, none⟩ [] = .ok key := by
    decide +kernel
  have accepted : verify key [] ⟨r, r, none⟩ = true := by
    decide +kernel
  have refused : recoverNumbered 0 ⟨5, 1, none⟩ [] = .error .noRecovery := by
    decide +kernel
  have ordered : key.point.hasGroupOrder = true := by
    have whole := Point.hasGroupOrder_ofGroup generatorElement
    rw [ofGroup_generatorElement] at whole
    exact whole.mpr ⟨generatorElement_ne_zero, groupOrder_nsmul_generatorElement⟩
  obtain ⟨recovers, verifies⟩ := opposites_agree r r [] none none
  obtain ⟨refuses, -⟩ := opposites_agree 5 1 [] none none
  refine ⟨isOnCurve_generator, ordered, recovered, ?_, ?_, ?_⟩
  · exact (recovers 0 (by decide)).trans recovered
  · exact (verifies key isOnCurve_generator ordered).trans accepted
  · exact (refuses 0 (by decide)).trans refused

end Ecdsa

end WalletKeys
