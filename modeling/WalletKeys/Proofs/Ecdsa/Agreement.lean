import WalletKeys.Proofs.Ecdsa.Recovery

/-!
# Recovery and verification agree

Recovery solves the equation that verification checks, for any two numbers and
not only for those that a signer has made. The element that an id names is the
sum of the two elements of verification (`sum_keyElement`), and a key of the
group order follows from the sum that it makes (`keyElement_sum`). Hence a
recovered key is accepted unless the two elements are equal, and an accepted
key is recovered under exactly one id.
-/

namespace WalletKeys

open Secp256k1

namespace RecoveryId

theorem toNat_ofNat_toNat (id : RecoveryId) :
    (UInt8.ofNat id.toNat).toNat = id.toNat := by
  have small := id.toNat_le
  apply UInt8.toNat_ofNat_of_lt
  rw [UInt8.size]
  omega

theorem odd_eq_testBit (id : RecoveryId) : id.odd = id.toNat.testBit 0 := by
  rcases id with ⟨odd, reduced⟩
  cases odd <;> cases reduced <;> rfl

theorem reduced_eq_testBit (id : RecoveryId) :
    id.reduced = id.toNat.testBit 1 := by
  rcases id with ⟨odd, reduced⟩
  cases odd <;> cases reduced <;> rfl

theorem abscissa_eq (id : RecoveryId) (signature : Signature) :
    id.abscissa signature =
      signature.r + if id.reduced then groupOrder else 0 := by
  unfold abscissa
  split <;> rfl

theorem abscissa_mod (id : RecoveryId) {signature : Signature}
    (bound : signature.r < groupOrder) :
    id.abscissa signature % groupOrder = signature.r := by
  rw [abscissa_eq]
  split
  · rw [Nat.add_mod_right, Nat.mod_eq_of_lt bound]
  · exact Nat.mod_eq_of_lt bound

end RecoveryId

namespace Ecdsa

variable {digest : Octets} {signature : Signature} {element : CurveGroup}

/-- A multiple and a shift undo another multiple and shift if their scalars do,
on every element that the group order takes to zero. -/
theorem nsmul_shift_cancel {outerShift outer innerShift inner : ℕ}
    (order : groupOrder • element = 0)
    (shift : (outerShift + outer * innerShift : ScalarField) = 0)
    (scale : (outer * inner : ScalarField) = 1) :
    outerShift • generatorElement +
        outer • (innerShift • generatorElement + inner • element) =
      element := by
  have generatorPart :
      (outerShift + outer * innerShift) • generatorElement = 0 := by
    rw [nsmul_generatorElement_eq_zero_iff]
    exact_mod_cast shift
  have elementPart : (outer * inner) • element = 1 • element := by
    apply nsmul_eq_nsmul_of_cast_eq order
    exact_mod_cast scale
  rw [nsmul_add, smul_smul, smul_smul, ← add_assoc, ← add_nsmul, generatorPart,
    elementPart, one_nsmul, zero_add]

/-- What verification adds up for a recovered key is the element that the key
was recovered from. Nothing is known of that element but its order. -/
theorem sum_keyElement (inRange : signature.inRange = true)
    (order : groupOrder • element = 0) :
    generatorScalar digest signature • generatorElement +
        keyScalar signature • keyElement element signature digest =
      element := by
  have rNonzero := cast_r_ne_zero_of_inRange inRange
  have sNonzero := cast_s_ne_zero_of_inRange inRange
  apply nsmul_shift_cancel order
  · rw [cast_generatorScalar, cast_keyScalar, Modular.cast_mul,
      Modular.cast_neg (digestScalar_lt digest).le,
      Modular.cast_inverse two_lt_groupOrder]
    field_simp
    ring
  · rw [cast_keyScalar, Modular.cast_mul,
      Modular.cast_inverse two_lt_groupOrder]
    field_simp

/-- The key of the group order follows from what verification adds up for it. -/
theorem keyElement_sum (inRange : signature.inRange = true)
    (order : groupOrder • element = 0) :
    keyElement
        (generatorScalar digest signature • generatorElement +
          keyScalar signature • element)
        signature digest =
      element := by
  have rNonzero := cast_r_ne_zero_of_inRange inRange
  have sNonzero := cast_s_ne_zero_of_inRange inRange
  apply nsmul_shift_cancel order
  · rw [cast_generatorScalar, Modular.cast_mul, Modular.cast_mul,
      Modular.cast_neg (digestScalar_lt digest).le,
      Modular.cast_inverse two_lt_groupOrder]
    field_simp
    ring
  · rw [cast_keyScalar, Modular.cast_mul,
      Modular.cast_inverse two_lt_groupOrder]
    field_simp

/-- A recovered key is accepted unless the two elements that are added are
equal. -/
theorem verify_keyElement {id : RecoveryId} (inRange : signature.inRange = true)
    (names : Names id signature element) :
    verify ⟨Point.ofGroup (keyElement element signature digest), true⟩ digest
          signature = true ↔
      generatorScalar digest signature • generatorElement ≠
        keyScalar signature • keyElement element signature digest := by
  obtain ⟨⟨-, bound⟩, -⟩ := (inRange_iff signature).mp inRange
  rw [verify_ofGroup rfl, sum_keyElement inRange names.order, names.abscissa,
    id.abscissa_mod bound]
  constructor
  · rintro ⟨-, different, -⟩
    exact different
  · intro different
    exact ⟨inRange, different, names.nonzero, rfl⟩

/-- The id of the sum that verification makes leads back to a key that is
accepted. -/
theorem exists_names_of_verify {key : PublicKey}
    (point : key.point = Point.ofGroup element)
    (order : groupOrder • element = 0)
    (accepted : verify key digest signature = true) :
    ∃ id,
      Names id signature
        (generatorScalar digest signature • generatorElement +
          keyScalar signature • element) := by
  obtain ⟨-, -, nonzero, abscissa⟩ :=
    (verify_ofGroup point digest signature).mp accepted
  -- The order of the key passes to the sum, which recovery asks for.
  refine ⟨_, names_of_abscissa nonzero ?_ abscissa.symm⟩
  rw [nsmul_add, nsmul_left_comm, groupOrder_nsmul_generatorElement,
    nsmul_left_comm, order, nsmul_zero, nsmul_zero, add_zero]

/-- What recovery says about verification: the two elements add up to the point
that the number names, and they alone decide whether the key is accepted. -/
theorem sum_eq_of_recoverNumbered {number : UInt8} {recovered : PublicKey}
    (read : recoverNumbered number signature digest = .ok recovered) :
    recovered.point.isOnCurve = true ∧
      ∃ candidate : Point,
        candidate.isOnCurve = true ∧
          candidate.hasGroupOrder = true ∧
          candidate.x =
            signature.r + (if number.toNat.testBit 1 then groupOrder else 0) ∧
          candidate.isOdd = number.toNat.testBit 0 ∧
          candidate.x % groupOrder = signature.r ∧
          generatorScalar digest signature • generatorElement +
              keyScalar signature • recovered.point.toGroup =
            candidate.toGroup ∧
          (verify recovered digest signature = true ↔
            generatorScalar digest signature • generatorElement ≠
              keyScalar signature • recovered.point.toGroup) := by
  obtain ⟨id, sameNumber, byId⟩ := (recoverNumbered_eq_ok_iff _ _ _ _).mp read
  obtain ⟨inRange, element, names, nonzero, rfl⟩ :=
    (recover_eq_ok_iff _ _ _ _).mp byId
  obtain ⟨⟨-, bound⟩, -⟩ := (inRange_iff signature).mp inRange
  refine
    ⟨(Point.isOnCurve_ofGroup _).mpr nonzero, Point.ofGroup element,
      (Point.isOnCurve_ofGroup _).mpr names.nonzero,
      (Point.hasGroupOrder_ofGroup _).mpr ⟨names.nonzero, names.order⟩,
      ?_, ?_, ?_, ?_, ?_⟩
  · rw [names.abscissa, id.abscissa_eq, id.reduced_eq_testBit, sameNumber]
  · rw [names.parity, id.odd_eq_testBit, sameNumber]
  · rw [names.abscissa, id.abscissa_mod bound]
  · rw [Point.toGroup_ofGroup, Point.toGroup_ofGroup,
      sum_keyElement inRange names.order]
  · rw [Point.toGroup_ofGroup]
    exact verify_keyElement inRange names

/-- What verification says about recovery: one number leads back to the point of
the key, and no other does. -/
theorem exists_recoverNumbered_of_verify {key : PublicKey}
    (onCurve : key.point.isOnCurve = true)
    (ordered : key.point.hasGroupOrder = true)
    (accepted : verify key digest signature = true) :
    ∃ number : UInt8,
      number ≤ 3 ∧
        recoverNumbered number signature digest = .ok ⟨key.point, true⟩ ∧
        ∀ other recovered,
          recoverNumbered other signature digest = .ok recovered →
            recovered.point = key.point → other = number := by
  have point : key.point = Point.ofGroup key.point.toGroup :=
    (Point.ofGroup_toGroup onCurve).symm
  have order : groupOrder • key.point.toGroup = 0 := by
    rw [point, Point.hasGroupOrder_ofGroup] at ordered
    exact ordered.2
  have inRange : signature.inRange = true :=
    ((verify_ofGroup point digest signature).mp accepted).1
  obtain ⟨id, names⟩ := exists_names_of_verify point order accepted
  have sameNumber := id.toNat_ofNat_toNat
  refine ⟨UInt8.ofNat id.toNat, ?_, ?_, ?_⟩
  · rw [UInt8.le_iff_toNat_le, sameNumber]
    exact id.toNat_le
  · rw [recoverNumbered_eq_ok_iff]
    refine ⟨id, sameNumber.symm, ?_⟩
    rw [recover_eq_ok_iff]
    refine ⟨inRange, _, names, ?_, ?_⟩
    · rw [keyElement_sum inRange order]
      exact Point.toGroup_ne_zero onCurve
    · rw [keyElement_sum inRange order, ← point]
  · intro other recovered read samePoint
    -- Equal keys come from equal elements, and an element has one id.
    obtain ⟨otherId, otherNumber, byId⟩ :=
      (recoverNumbered_eq_ok_iff _ _ _ _).mp read
    obtain ⟨-, element, otherNames, -, rfl⟩ :=
      (recover_eq_ok_iff _ _ _ _).mp byId
    have keys :
        keyElement element signature digest =
          keyElement
            (generatorScalar digest signature • generatorElement +
              keyScalar signature • key.point.toGroup)
            signature digest := by
      apply Point.ofGroup_injective
      rw [keyElement_sum inRange order, ← point]
      exact samePoint
    have sameElement :=
      keyElement_injective (cast_r_ne_zero_of_inRange inRange)
        (cast_s_ne_zero_of_inRange inRange) otherNames.order names.order keys
    rw [sameElement] at otherNames
    rw [← UInt8.toNat_inj, sameNumber, ← otherNumber,
      otherNames.id_unique names]

/-- Recovery and verification agree on any two numbers. The two points of
verification for a recovered key have the point that the number names as their
sum, so that the key is accepted unless they are equal; and a key of the group
order that is accepted is what exactly one number leads back to. All multiples
of the generator are of the group order but infinity. -/
theorem recoverNumbered_agrees_verify (digest : Octets) (signature : Signature) :
    let e := Octets.toNat (digest.take 32) % groupOrder
    let w := ((signature.s : ScalarField)⁻¹).val
    let u₁ := e * w % groupOrder
    let u₂ := signature.r * w % groupOrder
    (∀ number recovered,
      recoverNumbered number signature digest = .ok recovered →
        recovered.point.isOnCurve = true ∧
          ∃ candidate : Point,
            candidate.isOnCurve = true ∧
              candidate.hasGroupOrder = true ∧
              candidate.x =
                signature.r +
                  (if number.toNat.testBit 1 then groupOrder else 0) ∧
              candidate.isOdd = number.toNat.testBit 0 ∧
              candidate.x % groupOrder = signature.r ∧
              u₁ • generatorElement + u₂ • recovered.point.toGroup =
                candidate.toGroup ∧
              (verify recovered digest signature = true ↔
                u₁ • generatorElement ≠ u₂ • recovered.point.toGroup)) ∧
      (∀ key : PublicKey,
        key.point.isOnCurve = true →
        key.point.hasGroupOrder = true →
        verify key digest signature = true →
          ∃ number : UInt8,
            number ≤ 3 ∧
              recoverNumbered number signature digest = .ok ⟨key.point, true⟩ ∧
              ∀ other recovered,
                recoverNumbered other signature digest = .ok recovered →
                  recovered.point = key.point → other = number) ∧
      ∀ secret : Scalar,
        (Point.mulGenerator secret.value).hasGroupOrder = true := by
  intro e w u₁ u₂
  have generatorEq : generatorScalar digest signature = u₁ :=
    generatorScalar_eq digest signature
  have keyEq : keyScalar signature = u₂ :=
    keyScalar_eq signature
  refine ⟨?_, ?_, ?_⟩
  · intro number recovered read
    rw [← generatorEq, ← keyEq]
    exact sum_eq_of_recoverNumbered read
  · intro key onCurve ordered accepted
    exact exists_recoverNumbered_of_verify onCurve ordered accepted
  · intro secret
    rw [secret.mulGenerator_value, Point.hasGroupOrder_ofGroup]
    exact ⟨secret.element_ne_zero, secret.groupOrder_nsmul_element⟩

/-- A signature that nobody has made: two stands for an abscissa beyond the
group order, and with the empty digest the key is the very point that the number
two names. It is accepted, and no other number leads back to it. -/
theorem recoverNumbered_agrees_verify_reduced :
    let signature : Signature := ⟨2, 2, none⟩
    ∃ recovered,
      recoverNumbered 2 signature [] = .ok recovered ∧
        recovered.point.x = 2 + groupOrder ∧
        recovered.point.isOnCurve = true ∧
        recovered.point.hasGroupOrder = true ∧
        verify recovered [] signature = true ∧
        ∀ other key,
          recoverNumbered other signature [] = .ok key →
            key.point = recovered.point → other = 2 := by
  intro signature
  let point : Point := {
    x := 115792089237316195423570985008687907852837564279074904382605163141518161494339
    y := 91053287519602655257711947411980965203087100651880561778425623499501580200540 }
  have read : recoverNumbered 2 signature [] = .ok ⟨point, true⟩ := by
    decide +kernel
  have accepted : verify ⟨point, true⟩ [] signature = true := by
    decide +kernel
  have ordered : point.hasGroupOrder = true := by
    decide +kernel
  obtain ⟨forward, backward, -⟩ := recoverNumbered_agrees_verify [] signature
  have onCurve : point.isOnCurve = true :=
    (forward 2 _ read).1
  obtain ⟨number, -, -, unique⟩ :=
    backward ⟨point, true⟩ onCurve ordered accepted
  have two : 2 = number :=
    unique 2 _ read rfl
  subst two
  exact
    ⟨⟨point, true⟩, read, by decide, onCurve, ordered, accepted, unique⟩

end Ecdsa

end WalletKeys
