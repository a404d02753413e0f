import Mathlib.Tactic.IntervalCases
import WalletKeys.Ecdsa.Recover
import WalletKeys.Proofs.Ecdsa.Signing
import WalletKeys.Proofs.Secp256k1.Abscissa

/-!
# Recovery inverts signing

A recovery id and a signature name at most one element of the group order: the
id tells its abscissa and its parity (`Names`). Recovery succeeds exactly if
there is such an element and the key that follows from it is finite
(`recover_eq_ok_iff`). The element of the nonce is what the id of a signature
names, and different elements lead to different keys, so that one id alone
leads back to the signer.
-/

namespace WalletKeys

open Secp256k1

namespace RecoveryId

theorem toNat_le (id : RecoveryId) : id.toNat ≤ 3 := by
  have parity := Bool.toNat_le id.odd
  have reduction := Bool.toNat_le id.reduced
  rw [toNat]
  omega

theorem ofNat?_toNat (id : RecoveryId) : ofNat? id.toNat = some id := by
  rcases id with ⟨odd, reduced⟩
  cases odd <;> cases reduced <;> rfl

theorem toNat_of_ofNat? {number : ℕ} {id : RecoveryId}
    (read : ofNat? number = some id) : id.toNat = number := by
  unfold ofNat? at read
  split at read
  · next bound =>
      interval_cases number <;> cases read <;> rfl
  · cases read

/-- The abscissa that an id asks for. -/
def abscissa (id : RecoveryId) (signature : Signature) : ℕ :=
  if id.reduced then signature.r + groupOrder else signature.r

theorem reduced_eq_of_abscissa_eq {left right : RecoveryId}
    {signature : Signature}
    (same : left.abscissa signature = right.abscissa signature) :
    left.reduced = right.reduced := by
  have positive := groupOrder_pos
  unfold abscissa at same
  split at same <;> split at same
  · next leftReduced rightReduced =>
      rw [leftReduced, rightReduced]
  · omega
  · omega
  · next leftKept rightKept =>
      rw [Bool.eq_false_iff.mpr leftKept, Bool.eq_false_iff.mpr rightKept]

end RecoveryId

namespace Ecdsa

/-- An element is the one that an id and a signature name. -/
structure Names (id : RecoveryId) (signature : Signature)
    (element : CurveGroup) : Prop where
  nonzero : element ≠ 0
  order : groupOrder • element = 0
  abscissa : (Point.ofGroup element).x = id.abscissa signature
  parity : (Point.ofGroup element).isOdd = id.odd

theorem Names.id_unique {left right : RecoveryId} {signature : Signature}
    {element : CurveGroup} (leftNames : Names left signature element)
    (rightNames : Names right signature element) : left = right := by
  have parity : left.odd = right.odd := by
    rw [← leftNames.parity, rightNames.parity]
  have sameAbscissa :
      left.abscissa signature = right.abscissa signature := by
    rw [← leftNames.abscissa, rightNames.abscissa]
  have reduced : left.reduced = right.reduced :=
    RecoveryId.reduced_eq_of_abscissa_eq sameAbscissa
  rcases left with ⟨leftOdd, leftReduced⟩
  rcases right with ⟨rightOdd, rightReduced⟩
  rw [RecoveryId.mk.injEq]
  exact ⟨parity, reduced⟩

/-- An element of the group order is named by its parity and by whether its
abscissa exceeds the group order, since an abscissa is less than twice the group
order. -/
theorem names_of_abscissa {signature : Signature} {element : CurveGroup}
    (nonzero : element ≠ 0) (order : groupOrder • element = 0)
    (abscissa : signature.r = (Point.ofGroup element).x % groupOrder) :
    Names
      ⟨(Point.ofGroup element).isOdd,
        decide (groupOrder ≤ (Point.ofGroup element).x)⟩
      signature element := by
  refine ⟨nonzero, order, ?_, rfl⟩
  have once : fieldPrime < groupOrder + groupOrder := by
    decide
  have bound := Point.x_ofGroup_lt element
  rw [RecoveryId.abscissa, abscissa]
  by_cases beyond : groupOrder ≤ (Point.ofGroup element).x
  · rw [if_pos (decide_eq_true beyond), Nat.mod_eq_sub_mod beyond,
      Nat.mod_eq_of_lt (by omega), Nat.sub_add_cancel beyond]
  · rw [if_neg (by simpa using beyond), Nat.mod_eq_of_lt (by omega)]

theorem noncePoint_eq (id : RecoveryId) (signature : Signature) :
    noncePoint id signature =
      (Coordinate.solve? (id.abscissa signature)).elim
        (.error .noRecovery) fun y =>
          (Point.ofCoordinates (id.abscissa signature)
              (Coordinate.withParity id.odd y)).mapError WalletError.curve >>=
            fun point =>
              if point.hasGroupOrder = true then .ok point
              else .error .noRecovery := by
  simp only [noncePoint, demand_bind, require_bind]
  rfl

/-- The element over the right abscissa with the right parity is found, and its
order decides. -/
theorem noncePoint_of_solve? {id : RecoveryId} {signature : Signature} {y : ℕ}
    {element : CurveGroup}
    (found : Coordinate.solve? (id.abscissa signature) = some y)
    (nonzero : element ≠ 0)
    (point :
      Point.ofGroup element =
        ⟨id.abscissa signature, Coordinate.withParity id.odd y⟩) :
    noncePoint id signature =
      if (Point.ofGroup element).hasGroupOrder = true then
        .ok (Point.ofGroup element)
      else .error .noRecovery := by
  have onCurve := (Point.isOnCurve_ofGroup element).mpr nonzero
  rw [noncePoint_eq, found, Option.elim_some, Point.ofCoordinates, ← point,
    if_pos onCurve]
  rfl

theorem Names.noncePoint_eq_ok {id : RecoveryId} {signature : Signature}
    {element : CurveGroup} (names : Names id signature element) :
    noncePoint id signature = .ok (Point.ofGroup element) := by
  obtain ⟨y, found⟩ := Point.solve?_x_ofGroup names.nonzero
  rw [names.abscissa] at found
  obtain ⟨other, otherNonzero, point, parity⟩ :=
    Point.exists_ofGroup_of_solve? id.odd found
  have same : other = element := by
    apply Point.eq_of_x_eq_of_isOdd_eq
    · rw [point, names.abscissa]
    · rw [parity, names.parity]
  subst same
  have order : (Point.ofGroup other).hasGroupOrder = true :=
    (Point.hasGroupOrder_ofGroup other).mpr ⟨otherNonzero, names.order⟩
  rw [noncePoint_of_solve? found otherNonzero point, if_pos order]

theorem exists_names_of_noncePoint {id : RecoveryId} {signature : Signature}
    {point : Point} (read : noncePoint id signature = .ok point) :
    ∃ element, Names id signature element ∧ point = Point.ofGroup element := by
  cases found : Coordinate.solve? (id.abscissa signature) with
  | none =>
      rw [noncePoint_eq, found] at read
      cases read
  | some y =>
      obtain ⟨element, nonzero, coordinates, parity⟩ :=
        Point.exists_ofGroup_of_solve? id.odd found
      rw [noncePoint_of_solve? found nonzero coordinates] at read
      split at read
      · next order =>
          cases read
          refine ⟨element, ⟨nonzero, ?_, ?_, parity⟩, rfl⟩
          · exact ((Point.hasGroupOrder_ofGroup element).mp order).2
          · rw [coordinates]
      · cases read

/-- The key that follows from the element of a nonce, as an element. -/
def keyElement (element : CurveGroup) (signature : Signature)
    (digest : Octets) : CurveGroup :=
  let inverse := Modular.inverse signature.r groupOrder
  let opposite := Modular.neg (digestScalar digest) groupOrder
  Modular.mul opposite inverse groupOrder • generatorElement +
    Modular.mul signature.s inverse groupOrder • element

theorem keyPoint_ofGroup (element : CurveGroup) (signature : Signature)
    (digest : Octets) :
    keyPoint (Point.ofGroup element) signature digest =
      Point.ofGroup (keyElement element signature digest) := by
  rw [keyPoint, keyElement, mulGenerator_eq, Point.mul_ofGroup,
    Point.add_ofGroup]

theorem recover_eq (id : RecoveryId) (signature : Signature) (digest : Octets) :
    recover id signature digest =
      if signature.inRange = true then
        noncePoint id signature >>= fun point =>
          if (!(keyPoint point signature digest).isInfinity) = true then
            PublicKey.ofPoint (keyPoint point signature digest) true
          else .error .noRecovery
      else .error .signatureOutOfRange := by
  simp only [recover, require_bind]

theorem recover_of_keyElement_ne_zero {id : RecoveryId} {signature : Signature}
    {digest : Octets} {element : CurveGroup}
    (inRange : signature.inRange = true) (names : Names id signature element)
    (nonzero : keyElement element signature digest ≠ 0) :
    recover id signature digest =
      .ok ⟨Point.ofGroup (keyElement element signature digest), true⟩ := by
  have finite :
      (!(Point.ofGroup (keyElement element signature digest)).isInfinity) =
        true := by
    rw [Bool.not_eq_true', ← Bool.not_eq_true, Point.isInfinity_ofGroup]
    exact nonzero
  rw [recover_eq, if_pos inRange, names.noncePoint_eq_ok, ok_bind,
    keyPoint_ofGroup, if_pos finite, PublicKey.ofPoint_ofGroup nonzero]

theorem recover_of_keyElement_eq_zero {id : RecoveryId} {signature : Signature}
    {digest : Octets} {element : CurveGroup}
    (inRange : signature.inRange = true) (names : Names id signature element)
    (zero : keyElement element signature digest = 0) :
    recover id signature digest = .error .noRecovery := by
  rw [recover_eq, if_pos inRange, names.noncePoint_eq_ok, ok_bind,
    keyPoint_ofGroup, zero]
  rfl

/-- What recovery returns, and when. -/
theorem recover_eq_ok_iff (id : RecoveryId) (signature : Signature)
    (digest : Octets) (recovered : PublicKey) :
    recover id signature digest = .ok recovered ↔
      signature.inRange = true ∧
        ∃ element,
          Names id signature element ∧
            keyElement element signature digest ≠ 0 ∧
              recovered =
                ⟨Point.ofGroup (keyElement element signature digest), true⟩ := by
  constructor
  · intro read
    have inRange : signature.inRange = true := by
      by_contra outOfRange
      rw [recover_eq, if_neg outOfRange] at read
      cases read
    cases nonce : noncePoint id signature with
    | error failure =>
        rw [recover_eq, if_pos inRange, nonce] at read
        cases read
    | ok point =>
        obtain ⟨element, names, -⟩ := exists_names_of_noncePoint nonce
        by_cases zero : keyElement element signature digest = 0
        · rw [recover_of_keyElement_eq_zero inRange names zero] at read
          cases read
        · rw [recover_of_keyElement_ne_zero inRange names zero] at read
          cases read
          exact ⟨inRange, element, names, zero, rfl⟩
  · rintro ⟨inRange, element, names, nonzero, rfl⟩
    exact recover_of_keyElement_ne_zero inRange names nonzero

/-- Different elements lead to different keys. -/
theorem keyElement_injective {left right : CurveGroup} {signature : Signature}
    {digest : Octets}
    (rNonzero : (signature.r : ScalarField) ≠ 0)
    (sNonzero : (signature.s : ScalarField) ≠ 0)
    (leftOrder : groupOrder • left = 0) (rightOrder : groupOrder • right = 0)
    (same :
      keyElement left signature digest = keyElement right signature digest) :
    left = right := by
  by_contra different
  have difference : left - right ≠ 0 :=
    sub_ne_zero.mpr different
  have order : groupOrder • (left - right) = 0 := by
    rw [nsmul_sub, leftOrder, rightOrder, sub_zero]
  have multiples := add_left_cancel same
  rw [← sub_eq_zero, ← nsmul_sub, nsmul_eq_zero_iff difference order,
    Modular.cast_mul, Modular.cast_inverse two_lt_groupOrder] at multiples
  exact mul_ne_zero sNonzero (inv_ne_zero rNonzero) multiples

namespace MadeWith

variable {key : PrivateKey} {digest : Octets} {nonce : Scalar}
  {signature : Signature}

/-- The id of a signature names the point of the nonce. -/
theorem names (made : MadeWith key digest nonce signature) :
    ∃ id,
      signature.recoveryId = some id ∧
        Names id signature nonce.element :=
  ⟨_, made.recoveryId,
    names_of_abscissa nonce.element_ne_zero nonce.groupOrder_nsmul_element
      made.abscissa⟩

/-- From the point of the nonce follows the key of the signer. -/
theorem keyElement_eq (made : MadeWith key digest nonce signature) :
    keyElement nonce.element signature digest = key.secret.element := by
  have rNonzero := made.cast_r_ne_zero
  rw [keyElement, Scalar.nsmul_element_eq, ← add_nsmul, Scalar.element,
    nsmul_generatorElement_eq_iff]
  push_cast
  rw [Modular.cast_mul, Modular.cast_mul,
    Modular.cast_neg (digestScalar_lt digest).le,
    Modular.cast_inverse two_lt_groupOrder]
  have equation := made.equation
  field_simp
  linear_combination equation

/-- The id of a signature leads back to the signer. -/
theorem recover_eq_ok (made : MadeWith key digest nonce signature)
    {id : RecoveryId} (stored : signature.recoveryId = some id) :
    recover id signature digest = .ok ⟨key.point, true⟩ := by
  obtain ⟨own, recoveryId, names⟩ := made.names
  have ownKey := made.keyElement_eq
  have same : own = id :=
    Option.some.inj (recoveryId.symm.trans stored)
  subst same
  rw [recover_eq_ok_iff, key.point_eq_ofGroup]
  refine ⟨made.inRange, nonce.element, names, ?_, ?_⟩
  · rw [ownKey]
    exact key.secret.element_ne_zero
  · rw [ownKey]

/-- No other id leads there. -/
theorem recoveryId_of_recover (made : MadeWith key digest nonce signature)
    {id : RecoveryId} {recovered : PublicKey}
    (read : recover id signature digest = .ok recovered)
    (signer : recovered.point = key.point) :
    signature.recoveryId = some id := by
  obtain ⟨own, recoveryId, names⟩ := made.names
  obtain ⟨-, element, otherNames, -, rfl⟩ :=
    (recover_eq_ok_iff _ _ _ _).mp read
  have keys :
      keyElement element signature digest =
        keyElement nonce.element signature digest := by
    apply Point.ofGroup_injective
    rw [made.keyElement_eq, ← key.point_eq_ofGroup]
    exact signer
  have same : element = nonce.element :=
    keyElement_injective made.cast_r_ne_zero made.cast_s_ne_zero
      otherNames.order names.order keys
  rw [same] at otherNames
  rw [recoveryId, names.id_unique otherNames]

end MadeWith

theorem recoverNumbered_eq_ok_iff (number : UInt8) (signature : Signature)
    (digest : Octets) (recovered : PublicKey) :
    recoverNumbered number signature digest = .ok recovered ↔
      ∃ id : RecoveryId,
        id.toNat = number.toNat ∧ recover id signature digest = .ok recovered := by
  rw [recoverNumbered, demand_bind]
  constructor
  · intro read
    cases named : RecoveryId.ofNat? number.toNat with
    | none =>
        rw [named] at read
        cases read
    | some id =>
        rw [named] at read
        exact ⟨id, RecoveryId.toNat_of_ofNat? named, read⟩
  · rintro ⟨id, sameNumber, read⟩
    rw [← sameNumber, RecoveryId.ofNat?_toNat]
    exact read

/-- Recovery inverts signing: both numbers of a signature are in range, its id
leads back to the key that signed, and every other number is refused or leads
to another point. -/
theorem recoverNumbered_of_sign? {key : PrivateKey} {digest : Octets}
    {draws rest : Draws} {signature : Signature}
    (signed : sign? key digest draws = some (signature, rest)) :
    (1 ≤ signature.r ∧ signature.r < groupOrder) ∧
      (1 ≤ signature.s ∧ signature.s < groupOrder) ∧
        ∃ number : UInt8,
          number ≤ 3 ∧
            signature.recoveryId.map RecoveryId.toNat = some number.toNat ∧
            recoverNumbered number signature digest =
              .ok ⟨Point.mulGenerator key.secret.value, true⟩ ∧
            ∀ other : UInt8, other ≠ number → ∀ recovered,
              recoverNumbered other signature digest = .ok recovered →
                recovered.point ≠ Point.mulGenerator key.secret.value := by
  obtain ⟨nonce, made⟩ := exists_nonce_of_sign? signed
  obtain ⟨rRange, sRange⟩ := (inRange_iff signature).mp made.inRange
  obtain ⟨id, stored, -⟩ := made.names
  have small := id.toNat_le
  have sameNumber : (UInt8.ofNat id.toNat).toNat = id.toNat := by
    apply UInt8.toNat_ofNat_of_lt
    rw [UInt8.size]
    omega
  refine ⟨rRange, sRange, UInt8.ofNat id.toNat, ?_, ?_, ?_, ?_⟩
  · rw [UInt8.le_iff_toNat_le, sameNumber]
    exact small
  · rw [stored, Option.map_some, sameNumber]
  · rw [recoverNumbered_eq_ok_iff, ← key.point_eq]
    exact ⟨id, sameNumber.symm, made.recover_eq_ok stored⟩
  · intro other different recovered read signer
    obtain ⟨otherId, otherNumber, otherRead⟩ :=
      (recoverNumbered_eq_ok_iff _ _ _ _).mp read
    rw [← key.point_eq] at signer
    have otherStored := made.recoveryId_of_recover otherRead signer
    have same : otherId = id :=
      Option.some.inj (otherStored.symm.trans stored)
    apply different
    rw [← UInt8.toNat_inj, sameNumber, ← otherNumber, same]

/-- The key of one signs the empty digest with the largest nonce: the point is
the opposite of the generator, and the number that leads back is one. -/
theorem recoverNumbered_largest_nonce :
    let key := PrivateKey.ofScalar Scalar.one true
    let r := Point.generator.x
    let signature : Signature := ⟨r, groupOrder - r, some ⟨true, false⟩⟩
    sign? key [] [Block.ofNat 32 (groupOrder - 1)] = some (signature, []) ∧
      recoverNumbered 1 signature [] = .ok ⟨Point.generator, true⟩ ∧
        ∀ recovered,
          recoverNumbered 0 signature [] = .ok recovered →
            recovered.point ≠ Point.generator := by
  intro key r signature
  have signed :
      sign? key [] [Block.ofNat 32 (groupOrder - 1)] = some (signature, []) := by
    decide +kernel
  have signer : Point.mulGenerator key.secret.value = Point.generator := by
    decide +kernel
  obtain ⟨-, -, number, -, stored, own, others⟩ :=
    recoverNumbered_of_sign? signed
  have one : number = 1 := by
    rw [← UInt8.toNat_inj]
    exact (Option.some.inj stored).symm
  subst one
  rw [signer] at own others
  exact ⟨signed, own, fun recovered => others 0 (by decide) recovered⟩

end Ecdsa

end WalletKeys
