import WalletKeys.Proofs.Ecdsa.Signing
import WalletKeys.Proofs.Key.Private

/-!
# Nonces from a random source

A signature is made with the first block that is a scalar and leaves no zero in
it (`IsNonce`, `sign?_eq_some_iff`), as a key is made of the first that is a
scalar. A signer that draws scalars one after another, each from where the last
one ended, skips no block and takes none twice (`signInRounds?`,
`sign?_eq_signInRounds?`).
-/

namespace WalletKeys

open Secp256k1

namespace Ecdsa

/-- The number of the block is a scalar, and neither number of the signature
with it is zero. -/
structure IsNonce (key : PrivateKey) (digest : Octets) (block : Block 32) :
    Prop where
  isScalar : block.IsScalar
  first : firstNumber block.toNat ≠ 0
  second : secondNumber key digest block.toNat ≠ 0

theorem secondNumber_mul_modEq (key : PrivateKey) (digest : Octets)
    {block : Block 32} (isScalar : block.IsScalar) :
    secondNumber key digest block.toNat * block.toNat ≡
      digestScalar digest + firstNumber block.toNat * key.secret.value
        [MOD groupOrder] := by
  rw [← ZMod.natCast_eq_natCast_iff]
  push_cast
  exact cast_secondNumber_mul key digest ⟨block.toNat, isScalar.1, isScalar.2⟩

theorem attempt?_eq_some_iff {key : PrivateKey} {digest : Octets}
    {block : Block 32} {signature : Signature} :
    attempt? key digest block = some signature ↔
      IsNonce key digest block ∧
        signature = signatureOf key digest block.toNat := by
  rw [attempt?, Option.bind_eq_some_iff]
  constructor
  · rintro ⟨nonce, drawn, made⟩
    have isScalar : block.IsScalar := by
      rw [← Scalar.ofNat?_isSome_iff, drawn]
      rfl
    rw [signatureWith?_eq, Scalar.value_of_ofNat? drawn] at made
    split at made
    · cases made
    · next nonzero =>
        obtain ⟨first, second⟩ := not_or.mp nonzero
        cases made
        exact ⟨⟨isScalar, first, second⟩, rfl⟩
  · rintro ⟨⟨isScalar, first, second⟩, rfl⟩
    obtain ⟨nonce, drawn⟩ :=
      Option.isSome_iff_exists.mp ((Scalar.ofNat?_isSome_iff block).mpr isScalar)
    refine ⟨nonce, drawn, ?_⟩
    rw [signatureWith?_eq, Scalar.value_of_ofNat? drawn,
      if_neg (not_or.mpr ⟨first, second⟩)]

/-- Whether the numbers are zero shows before the division by the nonce. -/
theorem isNonce_iff_isUsable (key : PrivateKey) (digest : Octets)
    (block : Block 32) :
    IsNonce key digest block ↔ IsUsable key digest block := by
  constructor
  · intro nonce
    let scalar : Scalar := ⟨block.toNat, nonce.isScalar.1, nonce.isScalar.2⟩
    exact
      { inRange := nonce.isScalar
        first := mt Nat.mod_eq_zero_of_dvd nonce.first
        second := mt (secondNumber_eq_zero_iff key digest scalar).mpr nonce.second }
  · intro usable
    let scalar : Scalar := ⟨block.toNat, usable.inRange.1, usable.inRange.2⟩
    exact
      { isScalar := usable.inRange
        first := mt Nat.dvd_of_mod_eq_zero usable.first
        second := mt (secondNumber_eq_zero_iff key digest scalar).mp usable.second }

theorem attempt?_isSome_iff_isNonce (key : PrivateKey) (digest : Octets)
    (block : Block 32) :
    (attempt? key digest block).isSome = true ↔ IsNonce key digest block := by
  rw [isNonce_iff_isUsable]
  exact attempt?_isSome_iff key digest block

theorem sign?_eq_some_iff {key : PrivateKey} {digest : Octets}
    {draws rest : Draws} {signature : Signature} :
    sign? key digest draws = some (signature, rest) ↔
      ∃ block,
        draws.TakesFirst (IsNonce key digest) block rest ∧
          signature = signatureOf key digest block.toNat := by
  rw [sign?_eq_first?,
    Draws.first?_eq_some_iff (attempt?_isSome_iff_isNonce key digest)]
  refine exists_congr fun block => and_congr_right fun taken => ?_
  rw [attempt?_eq_some_iff, and_iff_right taken.accepted]

theorem sign?_eq_none_iff {key : PrivateKey} {digest : Octets} {draws : Draws} :
    sign? key digest draws = none ↔
      ∀ block ∈ draws, ¬IsNonce key digest block := by
  rw [sign?_eq_first?,
    Draws.first?_eq_none_iff (attempt?_isSome_iff_isNonce key digest)]

/-- Signing in rounds: a scalar is drawn from the source, and another one from
where it ended for as long as it leads to no signature. -/
def signInRounds? (key : PrivateKey) (digest : Octets) (draws : Draws) :
    Option (Signature × Draws) :=
  match _drawn : Scalar.draw? draws with
  | none => none
  | some (nonce, rest) =>
      match signatureWith? key digest nonce with
      | some signature => some (signature, rest)
      | none => signInRounds? key digest rest
termination_by draws.length
decreasing_by exact Scalar.length_lt_of_draw? _drawn

/-- One round: what the drawn scalar leads to, or the rounds that follow. -/
theorem sign?_eq_round (key : PrivateKey) (digest : Octets) (draws : Draws) :
    sign? key digest draws =
      (Scalar.draw? draws).bind fun drawn =>
        (signatureWith? key digest drawn.1).elim (sign? key digest drawn.2)
          fun signature => some (signature, drawn.2) := by
  simp only [sign?_eq_first?, Scalar.draw?_eq_first?]
  exact Draws.first?_bind _ (signatureWith? key digest) draws

theorem sign?_eq_signInRounds? (key : PrivateKey) (digest : Octets)
    (draws : Draws) :
    sign? key digest draws = signInRounds? key digest draws := by
  rw [sign?_eq_round]
  fun_induction signInRounds? key digest draws with
  | case1 draws drawn =>
      rw [drawn]
      rfl
  | case2 draws nonce rest drawn signature made =>
      rw [drawn, Option.bind_some, made]
      rfl
  | case3 draws nonce rest drawn refused inductionHypothesis =>
      rw [drawn, Option.bind_some, refused, Option.elim_none, sign?_eq_round,
        inductionHypothesis]

end Ecdsa

/-- A source hands out its blocks in order. A key takes the first that is a
scalar as its secret; a signature is made with the first that is a scalar and
makes neither of its numbers zero, and the second number times the nonce is the
digest and the product of the first number and the secret. What stands in front
is used up, what stands behind is left and has no say; nothing comes exactly if
no block qualifies. A signer that draws in rounds does the same. -/
theorem draws_taken_in_order :
    ((∀ (draws rest : Draws) (key : PrivateKey),
        PrivateKey.generate? draws = some (key, rest) ↔
          ∃ block,
            draws.TakesFirst Block.IsScalar block rest ∧
              key.Holds block.toNat ∧ key.compressed = true) ∧
      (∀ draws : Draws,
        PrivateKey.generate? draws = none ↔
          ∀ block ∈ draws, ¬block.IsScalar) ∧
      ∀ (used rest later : Draws) (key : PrivateKey),
        PrivateKey.generate? (used ++ rest) = some (key, rest) →
          PrivateKey.generate? (used ++ later) = some (key, later)) ∧
    ∀ (key : PrivateKey) (digest : Octets),
      (∀ draws : Draws,
        Ecdsa.sign? key digest draws = Ecdsa.signInRounds? key digest draws) ∧
      (∀ (draws rest : Draws) (signature : Signature),
        Ecdsa.sign? key digest draws = some (signature, rest) ↔
          ∃ block,
            draws.TakesFirst (Ecdsa.IsNonce key digest) block rest ∧
              signature = Ecdsa.signatureOf key digest block.toNat) ∧
      (∀ block : Block 32,
        Ecdsa.IsNonce key digest block →
          (Ecdsa.signatureOf key digest block.toNat).s * block.toNat ≡
            Ecdsa.digestScalar digest +
              (Ecdsa.signatureOf key digest block.toNat).r * key.secret.value
            [MOD groupOrder]) ∧
      (∀ draws : Draws,
        Ecdsa.sign? key digest draws = none ↔
          ∀ block ∈ draws, ¬Ecdsa.IsNonce key digest block) ∧
      ∀ (used rest later : Draws) (signature : Signature),
        Ecdsa.sign? key digest (used ++ rest) = some (signature, rest) →
          Ecdsa.sign? key digest (used ++ later) = some (signature, later) := by
  constructor
  · refine
      ⟨fun _ _ _ => PrivateKey.generate?_eq_some_iff,
        fun _ => PrivateKey.generate?_eq_none_iff, ?_⟩
    intro used rest later key generated
    obtain ⟨block, taken, own⟩ := PrivateKey.generate?_eq_some_iff.mp generated
    exact
      PrivateKey.generate?_eq_some_iff.mpr ⟨block, taken.replace later, own⟩
  · intro key digest
    refine
      ⟨Ecdsa.sign?_eq_signInRounds? key digest,
        fun _ _ _ => Ecdsa.sign?_eq_some_iff,
        fun _ nonce => Ecdsa.secondNumber_mul_modEq key digest nonce.isScalar,
        fun _ => Ecdsa.sign?_eq_none_iff, ?_⟩
    intro used rest later signature signed
    obtain ⟨block, taken, same⟩ := Ecdsa.sign?_eq_some_iff.mp signed
    exact Ecdsa.sign?_eq_some_iff.mpr ⟨block, taken.replace later, same⟩

/-- Zero and the group order are passed over. The key of one is drawn next, and
signs the opposite of the abscissa of the generator: one itself makes the second
number zero, so that the signature is made with two. -/
theorem draws_taken_in_order_zero_second :
    let refused : Draws :=
      [Block.ofNat 32 0, Block.ofNat 32 groupOrder, Block.ofNat 32 1]
    let rest : Draws := [Block.ofNat 32 3]
    let key := PrivateKey.unit
    let digest := Octets.ofNat 32 (groupOrder - Point.generator.x)
    let signature : Signature :=
      ⟨89565891926547004231252920425935692360644145829622209833684329913297188986597,
        75145859070792927992622593269727532943615553327459760020394652847213116875847,
        some ⟨false, false⟩⟩
    (PrivateKey.generate? (refused ++ rest) = some (key, rest) ∧
        ∀ later,
          PrivateKey.generate? (refused ++ later) = some (key, later)) ∧
      (Ecdsa.sign? key digest refused = none ∧
        Block.IsScalar (Block.ofNat 32 1) ∧
        ¬Ecdsa.IsNonce key digest (Block.ofNat 32 1)) ∧
      Ecdsa.sign? key digest (refused ++ Block.ofNat 32 2 :: rest) =
          some (signature, rest) ∧
        Ecdsa.IsNonce key digest (Block.ofNat 32 2) ∧
        signature = Ecdsa.signatureOf key digest 2 ∧
        signature.s * 2 ≡
            Ecdsa.digestScalar digest + signature.r * key.secret.value
          [MOD groupOrder] ∧
        ∀ later,
          Ecdsa.sign? key digest (refused ++ Block.ofNat 32 2 :: later) =
            some (signature, later) := by
  intro refused rest key digest signature
  obtain ⟨⟨-, -, generatedAnyway⟩, signing⟩ := draws_taken_in_order
  obtain ⟨-, signed, equation, exhausted, signedAnyway⟩ := signing key digest
  have generates :
      PrivateKey.generate? (refused ++ rest) = some (key, rest) := by
    decide +kernel
  have refuses : Ecdsa.sign? key digest refused = none := by
    decide +kernel
  have signs :
      Ecdsa.sign? key digest (refused ++ Block.ofNat 32 2 :: rest) =
        some (signature, rest) := by
    decide +kernel
  have one : Block.ofNat 32 1 ∈ refused := by
    decide
  have noNonce : ¬Ecdsa.IsNonce key digest (Block.ofNat 32 1) :=
    (exhausted refused).mp refuses _ one
  obtain ⟨block, ⟨skipped, split, -, nonce⟩, same⟩ :=
    (signed _ _ _).mp signs
  obtain ⟨-, tails⟩ := List.append_inj' split rfl
  obtain rfl : Block.ofNat 32 2 = block :=
    List.head_eq_of_cons_eq tails
  have number : (Block.ofNat 32 2).toNat = 2 := by
    decide
  have solved := equation _ nonce
  rw [← same, number] at solved
  rw [number] at same
  exact
    ⟨⟨generates, fun later => generatedAnyway refused rest later key generates⟩,
      ⟨refuses, by decide, noNonce⟩, signs, nonce, same, solved,
      fun later =>
        signedAnyway (refused ++ [Block.ofNat 32 2]) rest later signature signs⟩

end WalletKeys
