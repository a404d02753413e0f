import Mathlib.Data.Nat.ModEq
import Mathlib.FieldTheory.Finite.Basic
import WalletKeys.Modular

/-!
# Residues as classes

The numbers of `WalletKeys.Modular` stand for classes modulo the modulus.
Every operation stays below the modulus and acts on the classes as its name
says. Powers are the powers of `Nat` reduced once (`pow_eq`); the inverse and
the square root modulo a prime are those of the field.
-/

namespace WalletKeys

theorem lt_two_pow_bitLength (number : ℕ) :
    number < 2 ^ bitLength number := by
  unfold bitLength
  split
  · omega
  · exact Nat.lt_log2_self

namespace Modular

variable {left right residue modulus : ℕ}

theorem add_lt (positive : 0 < modulus) :
    add left right modulus < modulus :=
  Nat.mod_lt _ positive

theorem mul_lt (positive : 0 < modulus) :
    mul left right modulus < modulus :=
  Nat.mod_lt _ positive

theorem sub_lt (leftBound : left < modulus) :
    sub left right modulus < modulus := by
  unfold sub
  split <;> omega

theorem neg_lt (positive : 0 < modulus) :
    neg residue modulus < modulus := by
  unfold neg
  split <;> omega

@[simp]
theorem cast_add (left right modulus : ℕ) :
    (add left right modulus : ZMod modulus) = left + right := by
  rw [add, ZMod.natCast_mod, Nat.cast_add]

@[simp]
theorem cast_mul (left right modulus : ℕ) :
    (mul left right modulus : ZMod modulus) = left * right := by
  rw [mul, ZMod.natCast_mod, Nat.cast_mul]

theorem cast_sub (rightBound : right ≤ modulus) :
    (sub left right modulus : ZMod modulus) = left - right := by
  unfold sub
  split
  · next ordered =>
      exact Nat.cast_sub ordered
  · next reversed =>
      have gap : right - left ≤ modulus := by
        omega
      rw [Nat.cast_sub gap, Nat.cast_sub (by omega : left ≤ right),
        ZMod.natCast_self]
      ring

theorem cast_neg (bound : residue ≤ modulus) :
    (neg residue modulus : ZMod modulus) = -residue := by
  unfold neg
  split
  · next zero =>
      simp [zero]
  · rw [Nat.cast_sub bound, ZMod.natCast_self, zero_sub]

/-- What the ladder has left to do: square the power once for each digit, and
multiply by the part of the exponent that these digits write. -/
theorem powDigits_modEq (base exponent modulus count power : ℕ) :
    powDigits base exponent modulus count power ≡
      power ^ 2 ^ count * base ^ (exponent % 2 ^ count) [MOD modulus] := by
  induction count generalizing power with
  | zero =>
      simpa [powDigits, Nat.mod_one] using Nat.ModEq.refl power
  | succ count inductionHypothesis =>
      have square : mul power power modulus ≡ power ^ 2 [MOD modulus] := by
        rw [pow_two]
        exact Nat.mod_modEq _ _
      have exponentSplit :
          exponent % 2 ^ (count + 1) =
            exponent % 2 ^ count + 2 ^ count * (exponent / 2 ^ count % 2) :=
        Nat.mod_pow_succ
      have squares : (power ^ 2) ^ 2 ^ count = power ^ 2 ^ (count + 1) := by
        rw [← pow_mul, pow_succ 2 count, mul_comm]
      simp only [powDigits]
      refine (inductionHypothesis _).trans ?_
      rw [exponentSplit, ← squares, Nat.testBit_eq_decide_div_mod_eq]
      by_cases digit : exponent / 2 ^ count % 2 = 1
      · have step :
            mul (mul power power modulus) base modulus ≡
              power ^ 2 * base [MOD modulus] :=
          (Nat.mod_modEq _ _).trans (square.mul_right base)
        have raised := step.pow (2 ^ count)
        rw [if_pos (by simpa using digit), digit, mul_one, pow_add]
        calc
          _ ≡ (power ^ 2 * base) ^ 2 ^ count *
                base ^ (exponent % 2 ^ count) [MOD modulus] :=
              raised.mul_right _
          _ = (power ^ 2) ^ 2 ^ count *
                (base ^ (exponent % 2 ^ count) * base ^ 2 ^ count) := by
              rw [mul_pow]
              ring
      · have noDigit : exponent / 2 ^ count % 2 = 0 := by
          omega
        rw [if_neg (by simpa using digit), noDigit, mul_zero, add_zero]
        exact (square.pow (2 ^ count)).mul_right _

theorem powDigits_mod (base exponent modulus count power : ℕ)
    (reduced : power % modulus = power) :
    powDigits base exponent modulus count power % modulus =
      powDigits base exponent modulus count power := by
  induction count generalizing power with
  | zero =>
      exact reduced
  | succ count inductionHypothesis =>
      apply inductionHypothesis
      split <;> exact Nat.mod_mod _ _

/-- Squaring along the digits of the exponent gives the power. -/
theorem pow_eq (base exponent modulus : ℕ) :
    pow base exponent modulus = base ^ exponent % modulus := by
  have reduced :=
    powDigits_mod base exponent modulus (bitLength exponent) (1 % modulus)
      (Nat.mod_mod _ _)
  have whole :=
    powDigits_modEq base exponent modulus (bitLength exponent) (1 % modulus)
  have one : (1 % modulus) ^ 2 ^ bitLength exponent ≡ 1 [MOD modulus] := by
    simpa using (Nat.mod_modEq 1 modulus).pow (2 ^ bitLength exponent)
  rw [Nat.mod_eq_of_lt (lt_two_pow_bitLength exponent)] at whole
  have power := whole.trans (one.mul_right (base ^ exponent))
  rw [one_mul] at power
  unfold pow
  rw [← reduced]
  exact power

@[simp]
theorem cast_pow (base exponent modulus : ℕ) :
    (pow base exponent modulus : ZMod modulus) = (base : ZMod modulus) ^ exponent := by
  rw [pow_eq, ZMod.natCast_mod, Nat.cast_pow]

theorem pow_lt (base exponent : ℕ) (positive : 0 < modulus) :
    pow base exponent modulus < modulus := by
  rw [pow_eq]
  exact Nat.mod_lt _ positive

/-- The power is the inverse of the field, also at zero. -/
theorem cast_inverse [Fact modulus.Prime] (odd : 2 < modulus) (residue : ℕ) :
    (inverse residue modulus : ZMod modulus) = (residue : ZMod modulus)⁻¹ := by
  rw [inverse, cast_pow]
  by_cases zero : (residue : ZMod modulus) = 0
  · rw [zero, inv_zero, zero_pow (by omega)]
  · apply eq_inv_of_mul_eq_one_left
    rw [← pow_succ, show modulus - 2 + 1 = modulus - 1 by omega]
    exact ZMod.pow_card_sub_one_eq_one zero

theorem inverse_lt (residue : ℕ) (positive : 0 < modulus) :
    inverse residue modulus < modulus :=
  pow_lt _ _ positive

theorem inverse_eq_val [Fact modulus.Prime] (odd : 2 < modulus) (residue : ℕ) :
    inverse residue modulus = ((residue : ZMod modulus)⁻¹).val := by
  have bound := inverse_lt residue (Nat.zero_lt_of_lt odd)
  rw [← cast_inverse odd, ZMod.val_natCast_of_lt bound]

/-- What comes out is a square root. -/
theorem sq_of_sqrt? {root : ℕ} (found : sqrt? residue modulus = some root) :
    (root : ZMod modulus) ^ 2 = residue := by
  unfold sqrt? at found
  dsimp only at found
  split at found
  · next square =>
      injection found with rootEq
      rw [rootEq] at square
      have classes := congrArg (Nat.cast (R := ZMod modulus)) square
      rwa [cast_mul, ZMod.natCast_mod, ← pow_two] at classes
  · cases found

theorem sqrt?_lt {root : ℕ} (positive : 0 < modulus)
    (found : sqrt? residue modulus = some root) :
    root < modulus := by
  unfold sqrt? at found
  dsimp only at found
  split at found
  · injection found with rootEq
    rw [← rootEq]
    exact pow_lt _ _ positive
  · cases found

/-- Every square has a root that is found, if the prime is three modulo four. -/
theorem sqrt?_isSome [Fact modulus.Prime] (threeModFour : modulus % 4 = 3)
    (square : IsSquare (residue : ZMod modulus)) :
    (sqrt? residue modulus).isSome := by
  obtain ⟨root, rootSquare⟩ := square
  have exponent : (modulus + 1) >>> 2 + (modulus + 1) >>> 2 = (modulus + 1) / 2 := by
    rw [Nat.shiftRight_eq_div_pow]
    omega
  have doubled : (modulus + 1) / 2 + (modulus + 1) / 2 = modulus + 1 := by
    omega
  have classes :
      ((mul (pow residue ((modulus + 1) >>> 2) modulus)
          (pow residue ((modulus + 1) >>> 2) modulus) modulus : ℕ) : ZMod modulus) =
        residue := by
    rw [cast_mul, cast_pow, ← pow_add, exponent, rootSquare, mul_pow, ← pow_add,
      doubled, pow_succ, ZMod.pow_card]
  have equal := (ZMod.natCast_eq_natCast_iff' _ _ _).mp classes
  rw [mul, Nat.mod_mod] at equal
  unfold sqrt?
  dsimp only
  rw [mul, if_pos equal]
  rfl

end Modular

end WalletKeys
