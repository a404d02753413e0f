import WalletKeys.Proofs.Secp256k1.Group

/-!
# Points over an abscissa

Over every abscissa of the curve lie two points, which are opposite and of
different parity. An abscissa and a parity therefore name at most one element
(`eq_of_x_eq_of_isOdd_eq`), and the search for a root finds it
(`exists_ofGroup_of_solve?`, `solve?_x_ofGroup`).
-/

namespace WalletKeys.Secp256k1

namespace Point

theorem isOdd_neg {element : CurveGroup} (nonzero : element ≠ 0) :
    (ofGroup (-element)).isOdd = !(ofGroup element).isOdd := by
  have finite : ¬(ofGroup element).isInfinity = true :=
    (isInfinity_ofGroup element).not.mpr nonzero
  rw [← neg_ofGroup, neg, if_neg finite]
  exact
    Coordinate.testBit_zero_neg (y_ofGroup_pos nonzero) (y_ofGroup_lt element)

theorem eq_of_x_eq_of_isOdd_eq {left right : CurveGroup}
    (sameX : (ofGroup left).x = (ofGroup right).x)
    (sameParity : (ofGroup left).isOdd = (ofGroup right).isOdd) :
    left = right := by
  rcases (x_ofGroup_eq_iff left right).mp sameX with equal | opposite
  · exact equal
  · by_cases zero : right = 0
    · rw [opposite, zero, neg_zero]
    · rw [opposite, isOdd_neg zero] at sameParity
      cases parity : (ofGroup right).isOdd <;> simp [parity] at sameParity

/-- A root that is found makes a point of the parity that is asked for. -/
theorem exists_ofGroup_of_solve? {x y : ℕ} (odd : Bool)
    (found : Coordinate.solve? x = some y) :
    ∃ element : CurveGroup,
      element ≠ 0 ∧
        ofGroup element = ⟨x, Coordinate.withParity odd y⟩ ∧
        (ofGroup element).isOdd = odd := by
  obtain ⟨xBound, yBound⟩ := Coordinate.lt_of_solve? found
  have square := Coordinate.sq_of_solve? found
  have positive : 0 < y := by
    rw [Nat.pos_iff_ne_zero, ne_eq, ← Coordinate.cast_eq_zero_iff yBound]
    intro zero
    rw [zero, zero_pow two_ne_zero] at square
    exact Coordinate.cube_add_seven_ne_zero x square.symm
  have equation :
      (Coordinate.withParity odd y : CoordinateField) ^ 2 =
        (x : CoordinateField) ^ 3 + 7 := by
    have roots :
        (Coordinate.withParity odd y : CoordinateField) = y ∨
          (Coordinate.withParity odd y : CoordinateField) = -y :=
      Coordinate.cast_withParity yBound
    rw [← square]
    rcases roots with same | opposite
    · rw [same]
    · rw [opposite, neg_sq]
  have onCurve :
      Point.isOnCurve ⟨x, Coordinate.withParity odd y⟩ = true :=
    (isOnCurve_iff _).mpr
      ⟨xBound, Coordinate.withParity_lt yBound,
        (nonsingular_iff _ _).mpr equation⟩
  refine
    ⟨toGroup ⟨x, Coordinate.withParity odd y⟩, toGroup_ne_zero onCurve,
      ofGroup_toGroup onCurve, ?_⟩
  rw [ofGroup_toGroup onCurve]
  exact Coordinate.testBit_zero_withParity positive yBound

/-- Over the abscissa of an element a root is found. -/
theorem solve?_x_ofGroup {element : CurveGroup} (nonzero : element ≠ 0) :
    ∃ y, Coordinate.solve? (ofGroup element).x = some y := by
  cases element with
  | zero =>
      exact absurd rfl nonzero
  | some x y onCurve =>
      rw [← Option.isSome_iff_exists]
      apply Coordinate.solve?_isSome (ZMod.val_lt x)
      rw [ZMod.natCast_zmod_val, ← (nonsingular_iff x y).mp onCurve,
        pow_two]
      exact ⟨y, rfl⟩

end Point

end WalletKeys.Secp256k1
