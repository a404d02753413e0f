import WalletKeys.Proofs.Ecdsa.Verification
import WalletKeys.Proofs.FirstDraw

/-!
# Signatures and their nonces

A signature is returned exactly if the random source hands out a block that
leads to one (`IsUsable`, `sign?_isSome_iff`). Whatever else it hands out, the
signature was made with one nonce, and its second number solves the equation of
that nonce (`MadeWith`, `exists_nonce_of_sign?`). Its two points then have the
point of the nonce as their sum, so that they are never opposite, and
verification can fail only where they are equal.
-/

namespace WalletKeys.Ecdsa

open Secp256k1

/-- The abscissa of the multiple of the generator by the nonce, modulo the group
order. -/
def firstNumber (nonce : ℕ) : ℕ :=
  (Point.mulGenerator nonce).x % groupOrder

/-- The sum of the digest and the product of the first number and the secret,
divided by the nonce modulo the group order. -/
def secondNumber (key : PrivateKey) (digest : Octets) (nonce : ℕ) : ℕ :=
  ((nonce : ScalarField)⁻¹ *
    (digestScalar digest + firstNumber nonce * key.secret.value)).val

/-- The signature with a nonce, which is none if one of its numbers is zero. -/
def signatureOf (key : PrivateKey) (digest : Octets) (nonce : ℕ) : Signature :=
  let point := Point.mulGenerator nonce
  ⟨firstNumber nonce, secondNumber key digest nonce,
    some ⟨point.isOdd, decide (groupOrder ≤ point.x)⟩⟩

theorem secondNumber_lt (key : PrivateKey) (digest : Octets) (nonce : ℕ) :
    secondNumber key digest nonce < groupOrder :=
  ZMod.val_lt _

theorem cast_secondNumber_mul (key : PrivateKey) (digest : Octets)
    (nonce : Scalar) :
    (secondNumber key digest nonce.value : ScalarField) * nonce.value =
      digestScalar digest + firstNumber nonce.value * key.secret.value := by
  rw [secondNumber, ZMod.natCast_zmod_val, mul_right_comm,
    inv_mul_cancel₀ nonce.cast_ne_zero, one_mul]

/-- The second number is zero exactly if the sum that is divided is. -/
theorem secondNumber_eq_zero_iff (key : PrivateKey) (digest : Octets)
    (nonce : Scalar) :
    secondNumber key digest nonce.value = 0 ↔
      groupOrder ∣
        digestScalar digest +
          (Point.mulGenerator nonce.value).x * key.secret.value := by
  have inverseNonzero := inv_ne_zero nonce.cast_ne_zero
  rw [secondNumber, ZMod.val_eq_zero, mul_eq_zero_iff_left inverseNonzero,
    ← ZMod.natCast_eq_zero_iff, firstNumber, ZMod.natCast_mod]
  push_cast
  rfl

/-- The numbers that signing computes, and when it refuses the nonce. -/
theorem signatureWith?_eq (key : PrivateKey) (digest : Octets) (nonce : Scalar) :
    signatureWith? key digest nonce =
      if firstNumber nonce.value = 0 ∨ secondNumber key digest nonce.value = 0
      then none else some (signatureOf key digest nonce.value) := by
  have second :
      Modular.mul (Modular.inverse nonce.value groupOrder)
          (Modular.add (digestScalar digest)
            (Modular.mul (firstNumber nonce.value) key.secret.value groupOrder)
            groupOrder)
          groupOrder =
        secondNumber key digest nonce.value := by
    rw [secondNumber, ← ZMod.val_natCast_of_lt (Modular.mul_lt groupOrder_pos),
      Modular.cast_mul, Modular.cast_inverse two_lt_groupOrder,
      Modular.cast_add, Modular.cast_mul]
  unfold signatureWith?
  dsimp only
  rw [← firstNumber, second]
  rfl

/-- What a nonce leaves in a signature: the abscissa of its point, the equation
with the digest and the secret, and the two facts on the point that the
abscissa modulo the group order does not tell. -/
structure MadeWith (key : PrivateKey) (digest : Octets) (nonce : Scalar)
    (signature : Signature) : Prop where
  abscissa :
    signature.r = (Point.ofGroup nonce.element).x % groupOrder
  firstNonzero : signature.r ≠ 0
  secondNonzero : signature.s ≠ 0
  secondBound : signature.s < groupOrder
  equation :
    (signature.s : ScalarField) * nonce.value =
      digestScalar digest + signature.r * key.secret.value
  recoveryId :
    signature.recoveryId =
      some
        ⟨(Point.ofGroup nonce.element).isOdd,
          decide (groupOrder ≤ (Point.ofGroup nonce.element).x)⟩

theorem madeWith_of_signatureWith? {key : PrivateKey} {digest : Octets}
    {nonce : Scalar} {signature : Signature}
    (made : signatureWith? key digest nonce = some signature) :
    MadeWith key digest nonce signature := by
  rw [signatureWith?_eq] at made
  split at made
  · cases made
  · next nonzero =>
      obtain ⟨firstNonzero, secondNonzero⟩ := not_or.mp nonzero
      cases made
      exact
        { abscissa := by rw [← nonce.mulGenerator_value]; rfl
          firstNonzero := firstNonzero
          secondNonzero := secondNonzero
          secondBound := secondNumber_lt key digest nonce.value
          equation := cast_secondNumber_mul key digest nonce
          recoveryId := by rw [← nonce.mulGenerator_value]; rfl }

namespace MadeWith

variable {key : PrivateKey} {digest : Octets} {nonce : Scalar}
  {signature : Signature}

theorem firstBound (made : MadeWith key digest nonce signature) :
    signature.r < groupOrder := by
  rw [made.abscissa]
  exact Nat.mod_lt _ groupOrder_pos

theorem inRange (made : MadeWith key digest nonce signature) :
    signature.inRange = true := by
  rw [inRange_iff]
  exact
    ⟨⟨Nat.pos_of_ne_zero made.firstNonzero, made.firstBound⟩,
      Nat.pos_of_ne_zero made.secondNonzero, made.secondBound⟩

theorem cast_r_ne_zero (made : MadeWith key digest nonce signature) :
    (signature.r : ScalarField) ≠ 0 :=
  cast_r_ne_zero_of_inRange made.inRange

theorem cast_s_ne_zero (made : MadeWith key digest nonce signature) :
    (signature.s : ScalarField) ≠ 0 :=
  cast_s_ne_zero_of_inRange made.inRange

/-- The points that verification adds up have the point of the nonce as their
sum. -/
theorem sum_eq_element (made : MadeWith key digest nonce signature) :
    generatorScalar digest signature • generatorElement +
        keyScalar signature • key.secret.element =
      nonce.element := by
  have sNonzero := made.cast_s_ne_zero
  rw [Scalar.nsmul_element_eq, ← add_nsmul, Scalar.element,
    nsmul_generatorElement_eq_iff]
  push_cast
  rw [cast_generatorScalar, cast_keyScalar]
  field_simp
  rw [← made.equation]

/-- The points are equal exactly if the digest is the product of the first
number and the secret. -/
theorem left_eq_right_iff (made : MadeWith key digest nonce signature) :
    generatorScalar digest signature • generatorElement =
        keyScalar signature • key.secret.element ↔
      digestScalar digest ≡ signature.r * key.secret.value [MOD groupOrder] := by
  have inverseNonzero := inv_ne_zero made.cast_s_ne_zero
  rw [Scalar.nsmul_element_eq, nsmul_generatorElement_eq_iff,
    ← ZMod.natCast_eq_natCast_iff]
  push_cast
  rw [cast_generatorScalar, cast_keyScalar, mul_right_comm,
    mul_left_inj' inverseNonzero]

theorem verify_eq_true_iff (made : MadeWith key digest nonce signature) :
    verify key.publicKey digest signature = true ↔
      ¬digestScalar digest ≡ signature.r * key.secret.value
        [MOD groupOrder] := by
  have point : key.publicKey.point = Point.ofGroup key.secret.element :=
    key.point_eq_ofGroup
  rw [verify_ofGroup point, made.sum_eq_element, ne_eq, made.left_eq_right_iff]
  constructor
  · rintro ⟨-, notShared, -, -⟩
    exact notShared
  · intro notShared
    exact
      ⟨made.inRange, notShared, nonce.element_ne_zero, made.abscissa.symm⟩

end MadeWith

/-- The block is a nonce, and neither of the numbers that it leads to is zero. -/
structure IsUsable (key : PrivateKey) (digest : Octets) (block : Block 32) :
    Prop where
  inRange : 0 < block.toNat ∧ block.toNat < groupOrder
  first : ¬groupOrder ∣ (Point.mulGenerator block.toNat).x
  second :
    ¬groupOrder ∣
      digestScalar digest +
        (Point.mulGenerator block.toNat).x * key.secret.value

theorem signatureWith?_isSome_iff (key : PrivateKey) (digest : Octets)
    (nonce : Scalar) :
    (signatureWith? key digest nonce).isSome ↔
      ¬groupOrder ∣ (Point.mulGenerator nonce.value).x ∧
        ¬groupOrder ∣
          digestScalar digest +
            (Point.mulGenerator nonce.value).x * key.secret.value := by
  rw [← secondNumber_eq_zero_iff, Nat.dvd_iff_mod_eq_zero, ← firstNumber,
    ← not_or, signatureWith?_eq]
  split
  · next refused =>
      exact iff_of_false Bool.false_ne_true (not_not_intro refused)
  · next made =>
      exact iff_of_true rfl made

theorem attempt?_isSome_iff (key : PrivateKey) (digest : Octets)
    (block : Block 32) :
    (attempt? key digest block).isSome ↔ IsUsable key digest block := by
  rw [attempt?]
  cases drawn : Scalar.ofNat? block.toNat with
  | none =>
      rw [Scalar.ofNat?_eq_none_iff, inScalarRange_iff] at drawn
      exact iff_of_false Bool.false_ne_true fun usable => drawn usable.inRange
  | some nonce =>
      have same := Scalar.value_of_ofNat? drawn
      rw [Option.bind_some, signatureWith?_isSome_iff, same]
      constructor
      · rintro ⟨first, second⟩
        exact ⟨same ▸ ⟨nonce.positive, nonce.below⟩, first, second⟩
      · intro usable
        exact ⟨usable.first, usable.second⟩

/-- Signing comes to an end exactly if the source hands out a block that leads to
a signature. -/
theorem sign?_isSome_iff (key : PrivateKey) (digest : Octets) (draws : Draws) :
    (sign? key digest draws).isSome ↔
      ∃ block ∈ draws, IsUsable key digest block := by
  rw [Option.isSome_iff_ne_none, sign?_eq_first?, ne_eq,
    Draws.first?_eq_none_iff (attempt?_isSome_iff key digest)]
  push Not
  rfl

/-- A block that leads to a signature is a nonce. -/
theorem exists_nonce_of_attempt? {key : PrivateKey} {digest : Octets}
    {block : Block 32} {signature : Signature}
    (attempted : attempt? key digest block = some signature) :
    ∃ nonce, MadeWith key digest nonce signature := by
  obtain ⟨nonce, _, made⟩ := Option.bind_eq_some_iff.mp attempted
  exact ⟨nonce, madeWith_of_signatureWith? made⟩

/-- Blocks that lead to no signature leave no trace in the one returned. -/
theorem exists_nonce_of_sign? {key : PrivateKey} {digest : Octets}
    {draws rest : Draws} {signature : Signature}
    (signed : sign? key digest draws = some (signature, rest)) :
    ∃ nonce, MadeWith key digest nonce signature := by
  rw [sign?_eq_first?,
    Draws.first?_eq_some_iff (attempt?_isSome_iff key digest)] at signed
  obtain ⟨block, -, attempted⟩ := signed
  exact exists_nonce_of_attempt? attempted

/-- From a source that hands out a block that leads to a signature, a signature
comes. -/
theorem exists_madeWith_of_isUsable {key : PrivateKey} {digest : Octets}
    {draws : Draws} (usable : ∃ block ∈ draws, IsUsable key digest block) :
    ∃ signature rest nonce,
      sign? key digest draws = some (signature, rest) ∧
        MadeWith key digest nonce signature := by
  rw [← sign?_isSome_iff, Option.isSome_iff_exists] at usable
  obtain ⟨⟨signature, rest⟩, signed⟩ := usable
  obtain ⟨nonce, made⟩ := exists_nonce_of_sign? signed
  exact ⟨signature, rest, nonce, signed, made⟩

/-- A signature of the key itself is refused exactly if the digest is the
product of its first number and the secret, modulo the group order. In
particular a digest of zero does no harm, although it makes one of the points
infinite. -/
theorem verify_eq_false_iff_of_sign? {key : PrivateKey} {digest : Octets}
    {draws rest : Draws} {signature : Signature}
    (signed : sign? key digest draws = some (signature, rest)) :
    (verify key.publicKey digest signature = false ↔
        digestScalar digest ≡ signature.r * key.secret.value
          [MOD groupOrder]) ∧
      (digestScalar digest = 0 →
        verify key.publicKey digest signature = true) := by
  obtain ⟨nonce, made⟩ := exists_nonce_of_sign? signed
  have accepted := made.verify_eq_true_iff
  constructor
  · rw [← Bool.not_eq_true, accepted, not_not]
  · intro zero
    rw [accepted, zero, ← ZMod.natCast_eq_natCast_iff, Nat.cast_zero,
      Nat.cast_mul]
    exact (mul_ne_zero made.cast_r_ne_zero key.secret.cast_ne_zero).symm

/-- The key of one signs the abscissa of the double of the generator with a
nonce of two, behind a block of zeros that is no nonce, and refuses what it has
signed. -/
theorem verify_refuses_own_signature :
    let r := (Point.mulGenerator 2).x
    let key := PrivateKey.ofScalar Scalar.one true
    let signature : Signature := ⟨r, r, some ⟨false, false⟩⟩
    sign? key (Octets.ofNat 32 r) [Block.ofNat 32 0, Block.ofNat 32 2] =
        some (signature, []) ∧
      verify key.publicKey (Octets.ofNat 32 r) signature = false := by
  intro r key signature
  have signed :
      sign? key (Octets.ofNat 32 r) [Block.ofNat 32 0, Block.ofNat 32 2] =
        some (signature, []) := by
    decide +kernel
  have shared :
      digestScalar (Octets.ofNat 32 r) ≡ signature.r * key.secret.value
        [MOD groupOrder] := by
    decide +kernel
  exact ⟨signed, (verify_eq_false_iff_of_sign? signed).1.mpr shared⟩

end WalletKeys.Ecdsa
