import WalletKeys.Proofs.Secp256k1.Coordinate

/-!
# Inverses and roots modulo a prime

Modulo an odd prime the inverse of every number that the prime does not divide is found, and modulo
a prime that is three modulo four a root of every square. The numbers need not be reduced. That no
root is found means that there is none (`Modular.sqrt?_eq_none_iff`), so that a point is found over
every abscissa that has one (`Modular.inverses_and_roots`).
-/

namespace WalletKeys

namespace Modular

variable {number modulus : ℕ}

theorem inverse_eq_zero [Fact modulus.Prime] (odd : 2 < modulus)
    (divides : modulus ∣ number) : inverse number modulus = 0 := by
  have zero : (number : ZMod modulus) = 0 :=
    (ZMod.natCast_eq_zero_iff number modulus).mpr divides
  rw [inverse_eq_val odd, zero, inv_zero, ZMod.val_zero]

theorem mul_inverse_modEq [Fact modulus.Prime] (odd : 2 < modulus)
    (apart : ¬modulus ∣ number) :
    number * inverse number modulus ≡ 1 [MOD modulus] := by
  have nonzero : (number : ZMod modulus) ≠ 0 :=
    (ZMod.natCast_eq_zero_iff number modulus).not.mpr apart
  rw [← ZMod.natCast_eq_natCast_iff, Nat.cast_mul, cast_inverse odd, Nat.cast_one]
  exact mul_inv_cancel₀ nonzero

/-- A root among the numbers is a root among the classes. -/
theorem exists_sq_modEq_iff [NeZero modulus] :
    (∃ root : ℕ, root ^ 2 ≡ number [MOD modulus]) ↔ IsSquare (number : ZMod modulus) := by
  constructor
  · rintro ⟨root, square⟩
    rw [← ZMod.natCast_eq_natCast_iff, Nat.cast_pow] at square
    exact ⟨root, by rw [← square, pow_two]⟩
  · rintro ⟨root, square⟩
    refine ⟨root.val, ?_⟩
    rw [← ZMod.natCast_eq_natCast_iff, Nat.cast_pow, ZMod.natCast_zmod_val, square, pow_two]

theorem sq_modEq_of_sqrt? {root : ℕ} (found : sqrt? number modulus = some root) :
    root ^ 2 ≡ number [MOD modulus] := by
  rw [← ZMod.natCast_eq_natCast_iff, Nat.cast_pow]
  exact sq_of_sqrt? found

theorem exists_sqrt?_of_sq_modEq [Fact modulus.Prime] (threeModFour : modulus % 4 = 3)
    (square : ∃ root : ℕ, root ^ 2 ≡ number [MOD modulus]) :
    ∃ root, sqrt? number modulus = some root ∧ root < modulus ∧
      root ^ 2 ≡ number [MOD modulus] := by
  obtain ⟨root, found⟩ :=
    Option.isSome_iff_exists.mp (sqrt?_isSome threeModFour (exists_sq_modEq_iff.mp square))
  have positive : 0 < modulus :=
    (Fact.out : modulus.Prime).pos
  exact ⟨root, found, sqrt?_lt positive found, sq_modEq_of_sqrt? found⟩

theorem sqrt?_eq_none_iff [Fact modulus.Prime] (threeModFour : modulus % 4 = 3) :
    sqrt? number modulus = none ↔ ¬∃ root : ℕ, root ^ 2 ≡ number [MOD modulus] := by
  constructor
  · intro refused square
    obtain ⟨root, found, -⟩ := exists_sqrt?_of_sq_modEq threeModFour square
    rw [refused] at found
    cases found
  · intro apart
    rw [Option.eq_none_iff_forall_ne_some]
    intro root found
    exact apart ⟨root, sq_modEq_of_sqrt? found⟩

end Modular

namespace Secp256k1.Coordinate

/-- A point is found over an abscissa exactly if it has one. -/
theorem solve?_isSome_iff (x : ℕ) :
    (solve? x).isSome = true ↔
      x < fieldPrime ∧ ∃ y : ℕ, y ^ 2 ≡ x ^ 3 + 7 [MOD fieldPrime] := by
  have value :
      ((x ^ 3 + 7 : ℕ) : CoordinateField) = (x : CoordinateField) ^ 3 + 7 := by
    push_cast
    rfl
  rw [Modular.exists_sq_modEq_iff, value]
  constructor
  · intro found
    obtain ⟨y, root⟩ := Option.isSome_iff_exists.mp found
    exact ⟨(lt_of_solve? root).1, y, by rw [← sq_of_solve? root, pow_two]⟩
  · rintro ⟨bound, square⟩
    exact solve?_isSome bound square

end Secp256k1.Coordinate

namespace Modular

/-- Modulo an odd prime the inverse is reduced, zero for the multiples of the prime and right for
all other numbers. Modulo a prime that is three modulo four a reduced root of every square is found,
zero included, and nothing exactly for the numbers that are none. Over the curve's prime this gives
a root over every abscissa of a point, and over no other number. -/
theorem inverses_and_roots :
    (∀ modulus number : ℕ, modulus.Prime → Odd modulus →
      inverse number modulus < modulus ∧
        (modulus ∣ number → inverse number modulus = 0) ∧
        (¬modulus ∣ number → number * inverse number modulus ≡ 1 [MOD modulus])) ∧
      (∀ modulus number : ℕ, modulus.Prime → modulus % 4 = 3 →
        ((∃ root : ℕ, root ^ 2 ≡ number [MOD modulus]) →
          ∃ root, sqrt? number modulus = some root ∧ root < modulus ∧
            root ^ 2 ≡ number [MOD modulus]) ∧
          (sqrt? number modulus = none ↔ ¬∃ root : ℕ, root ^ 2 ≡ number [MOD modulus])) ∧
      ∀ x : ℕ, (Secp256k1.Coordinate.solve? x).isSome = true ↔
        x < Secp256k1.fieldPrime ∧ ∃ y : ℕ, y ^ 2 ≡ x ^ 3 + 7 [MOD Secp256k1.fieldPrime] := by
  refine ⟨?_, ?_, Secp256k1.Coordinate.solve?_isSome_iff⟩
  · intro modulus number prime odd
    have large : 2 < modulus := by
      have atLeast := prime.two_le
      obtain ⟨half, rfl⟩ := odd
      omega
    have : Fact modulus.Prime := ⟨prime⟩
    exact
      ⟨inverse_lt number prime.pos, inverse_eq_zero large, mul_inverse_modEq large⟩
  · intro modulus number prime threeModFour
    have : Fact modulus.Prime := ⟨prime⟩
    exact ⟨exists_sqrt?_of_sq_modEq threeModFour, sqrt?_eq_none_iff threeModFour⟩

/-- Modulo twenty-three and beyond it: forty-eight has an inverse and a root, forty-six is a multiple
and has the inverse zero, and five has no root. -/
theorem inverses_and_roots_twentyThree :
    Nat.Prime 23 ∧ Odd 23 ∧ 23 % 4 = 3 ∧
      48 * inverse 48 23 ≡ 1 [MOD 23] ∧ inverse 46 23 = 0 ∧
      (∃ root, sqrt? 48 23 = some root ∧ root < 23 ∧ root ^ 2 ≡ 48 [MOD 23]) ∧
      ¬∃ root : ℕ, root ^ 2 ≡ 5 [MOD 23] := by
  have prime : Nat.Prime 23 := by
    decide
  have odd : Odd 23 := by
    decide
  obtain ⟨inverses, roots, -⟩ := inverses_and_roots
  have square : ∃ root : ℕ, root ^ 2 ≡ 48 [MOD 23] :=
    ⟨5, by decide⟩
  have refused : sqrt? 5 23 = none := by
    decide
  exact
    ⟨prime, odd, rfl, (inverses 23 48 prime odd).2.2 (by decide),
      (inverses 23 46 prime odd).2.1 (by decide), (roots 23 48 prime rfl).1 square,
      (roots 23 5 prime rfl).2.mp refused⟩

end Modular

end WalletKeys
