import WalletKeys.Proofs.Prime

/-!
# Coordinates as a field

Coordinates are the numbers below the field prime. Their operations are those
of the field of classes, and a number below the prime is determined by its
class. Every square has a root that is found. Seven is no square and minus
seven no cube, so that no point of the curve has a coordinate equal to zero.
-/

namespace WalletKeys.Secp256k1

/-- The field of the coordinates. -/
abbrev CoordinateField := ZMod fieldPrime

theorem fieldPrime_pos : 0 < fieldPrime :=
  prime_fieldPrime.pos

theorem two_lt_fieldPrime : 2 < fieldPrime := by
  decide

namespace Coordinate

variable {left right coordinate : ℕ}

@[simp]
theorem add_lt (left right : ℕ) : add left right < fieldPrime :=
  Modular.add_lt fieldPrime_pos

@[simp]
theorem mul_lt (left right : ℕ) : mul left right < fieldPrime :=
  Modular.mul_lt fieldPrime_pos

@[simp]
theorem sub_lt (leftBound : left < fieldPrime) : sub left right < fieldPrime :=
  Modular.sub_lt leftBound

@[simp]
theorem neg_lt (coordinate : ℕ) : neg coordinate < fieldPrime :=
  Modular.neg_lt fieldPrime_pos

@[simp]
theorem inverse_lt (coordinate : ℕ) : inverse coordinate < fieldPrime :=
  Modular.inverse_lt coordinate fieldPrime_pos

@[simp]
theorem curveValue_lt (x : ℕ) : curveValue x < fieldPrime :=
  add_lt _ _

theorem cast_inj (leftBound : left < fieldPrime) (rightBound : right < fieldPrime) :
    (left : CoordinateField) = right ↔ left = right := by
  rw [ZMod.natCast_eq_natCast_iff', Nat.mod_eq_of_lt leftBound,
    Nat.mod_eq_of_lt rightBound]

theorem cast_eq_zero_iff (bound : coordinate < fieldPrime) :
    (coordinate : CoordinateField) = 0 ↔ coordinate = 0 := by
  rw [← Nat.cast_zero]
  exact cast_inj bound fieldPrime_pos

@[simp]
theorem cast_add (left right : ℕ) :
    (add left right : CoordinateField) = left + right :=
  Modular.cast_add left right fieldPrime

@[simp]
theorem cast_mul (left right : ℕ) :
    (mul left right : CoordinateField) = left * right :=
  Modular.cast_mul left right fieldPrime

@[simp]
theorem cast_sub (rightBound : right < fieldPrime) :
    (sub left right : CoordinateField) = left - right :=
  Modular.cast_sub rightBound.le

@[simp]
theorem cast_neg (bound : coordinate < fieldPrime) :
    (neg coordinate : CoordinateField) = -coordinate :=
  Modular.cast_neg bound.le

@[simp]
theorem cast_inverse (coordinate : ℕ) :
    (inverse coordinate : CoordinateField) = (coordinate : CoordinateField)⁻¹ :=
  Modular.cast_inverse two_lt_fieldPrime coordinate

@[simp]
theorem cast_curveValue (x : ℕ) :
    (curveValue x : CoordinateField) = (x : CoordinateField) ^ 3 + 7 := by
  rw [curveValue, cast_add, cast_mul, cast_mul, constantTerm]
  push_cast
  ring

theorem natCast_ne_zero {number : ℕ} (positive : 0 < number)
    (bound : number < fieldPrime) :
    (number : CoordinateField) ≠ 0 :=
  fun zero => positive.ne' ((cast_eq_zero_iff bound).mp zero)

theorem two_ne_zero : (2 : CoordinateField) ≠ 0 := by
  exact_mod_cast natCast_ne_zero Nat.zero_lt_two two_lt_fieldPrime

theorem lt_of_solve? {x y : ℕ} (found : solve? x = some y) :
    x < fieldPrime ∧ y < fieldPrime := by
  unfold solve? at found
  split at found
  · cases found
  · next bound =>
      exact ⟨not_le.mp bound, Modular.sqrt?_lt fieldPrime_pos found⟩

/-- A root lies over its abscissa. -/
theorem sq_of_solve? {x y : ℕ} (found : solve? x = some y) :
    (y : CoordinateField) ^ 2 = (x : CoordinateField) ^ 3 + 7 := by
  unfold solve? at found
  split at found
  · cases found
  · rw [Modular.sq_of_sqrt? found, cast_curveValue]

/-- A root is found over every abscissa of a point. -/
theorem solve?_isSome {x : ℕ} (bound : x < fieldPrime)
    (square : IsSquare ((x : CoordinateField) ^ 3 + 7)) :
    (solve? x).isSome := by
  rw [solve?, if_neg (not_le.mpr bound)]
  apply Modular.sqrt?_isSome (by decide)
  rwa [cast_curveValue]

theorem withParity_lt {odd : Bool} {y : ℕ} (bound : y < fieldPrime) :
    withParity odd y < fieldPrime := by
  unfold withParity
  split
  · exact bound
  · exact neg_lt y

theorem testBit_zero_neg {y : ℕ} (positive : 0 < y) (bound : y < fieldPrime) :
    (neg y).testBit 0 = !y.testBit 0 := by
  have odd : fieldPrime % 2 = 1 := by
    decide
  unfold neg Modular.neg
  rw [if_neg positive.ne', Nat.testBit_zero, Nat.testBit_zero]
  have parity : (fieldPrime - y) % 2 = 1 - y % 2 := by
    omega
  rw [parity]
  rcases Nat.mod_two_eq_zero_or_one y with even | odd
  · simp [even]
  · simp [odd]

/-- The parity comes out as asked, except over a zero root. -/
theorem testBit_zero_withParity {odd : Bool} {y : ℕ} (positive : 0 < y)
    (bound : y < fieldPrime) :
    (withParity odd y).testBit 0 = odd := by
  unfold withParity
  split
  · next asked =>
      exact asked
  · next other =>
      rw [testBit_zero_neg positive bound]
      cases odd <;> simp_all

theorem cast_withParity {odd : Bool} {y : ℕ} (bound : y < fieldPrime) :
    (withParity odd y : CoordinateField) = y ∨
      (withParity odd y : CoordinateField) = -y := by
  unfold withParity
  split
  · exact Or.inl rfl
  · exact Or.inr (cast_neg bound)

/-- No point lies over zero: the search for a root fails there. -/
theorem not_isSquare_seven : ¬ IsSquare (7 : CoordinateField) := by
  intro square
  have noRoot : (solve? 0).isSome = false := by
    decide +kernel
  have root : (solve? 0).isSome := by
    apply solve?_isSome fieldPrime_pos
    rwa [Nat.cast_zero, zero_pow three_ne_zero, zero_add]
  exact Bool.false_ne_true (noRoot.symm.trans root)

/-- No point lies on the axis: minus seven fails the test for cubes. -/
theorem cube_add_seven_ne_zero (x : CoordinateField) : x ^ 3 + 7 ≠ 0 := by
  intro zero
  have cube : x ^ 3 = ((fieldPrime - 7 : ℕ) : CoordinateField) := by
    rw [Nat.cast_sub (by decide), ZMod.natCast_self, zero_sub]
    exact_mod_cast eq_neg_of_add_eq_zero_left zero
  have nonzero : x ≠ 0 := by
    rintro rfl
    rw [zero_pow three_ne_zero] at cube
    exact
      natCast_ne_zero (by decide) (by decide) cube.symm
  have thirds : 3 * ((fieldPrime - 1) / 3) = fieldPrime - 1 := by
    decide
  have power :
      ((Modular.pow (fieldPrime - 7) ((fieldPrime - 1) / 3) fieldPrime : ℕ) :
        CoordinateField) = (1 : ℕ) := by
    rw [Modular.cast_pow, ← cube, ← pow_mul, thirds, Nat.cast_one]
    exact ZMod.pow_card_sub_one_eq_one nonzero
  rw [cast_inj (Modular.pow_lt _ _ fieldPrime_pos) (by decide)] at power
  exact absurd power (by decide +kernel)

end Coordinate

end WalletKeys.Secp256k1
