import Mathlib.Data.Nat.Digits.Lemmas
import Mathlib.Tactic.Ring
import WalletKeys.Octets

/-!
# Octet strings as numbers

The number of an octet string is positional (`toNat_append`), and dropping the
last octets divides it (`toNat_take`). A number that is written keeps its low
places (`toNat_ofNat`), and octets that were read are written again
(`ofNat_toNat`). Read from behind, octets are the digits of the number to the
base 256 (`ofDigits_map_reverse`).
-/

namespace WalletKeys.Octets

theorem foldl_eq (start : ℕ) (octets : Octets) :
    octets.foldl (fun number octet => number * 256 + octet.toNat) start =
      start * 256 ^ octets.length + toNat octets := by
  unfold toNat
  induction octets generalizing start with
  | nil =>
      simp
  | cons octet rest inductionHypothesis =>
      rw [List.foldl_cons, List.foldl_cons, inductionHypothesis,
        inductionHypothesis (0 * 256 + octet.toNat), List.length_cons]
      ring

theorem toNat_append (front back : Octets) :
    toNat (front ++ back) = toNat front * 256 ^ back.length + toNat back := by
  rw [toNat, List.foldl_append, foldl_eq]
  rfl

theorem toNat_cons (octet : UInt8) (rest : Octets) :
    toNat (octet :: rest) = octet.toNat * 256 ^ rest.length + toNat rest := by
  rw [← List.singleton_append, toNat_append]
  simp [toNat]

theorem toNat_lt (octets : Octets) : toNat octets < 256 ^ octets.length := by
  induction octets with
  | nil =>
      simp
  | cons octet rest inductionHypothesis =>
      have octetBound : octet.toNat + 1 ≤ 256 :=
        octet.toNat_lt
      rw [toNat_cons, List.length_cons]
      calc
        octet.toNat * 256 ^ rest.length + toNat rest <
            (octet.toNat + 1) * 256 ^ rest.length := by
          rw [Nat.succ_mul]
          exact Nat.add_lt_add_left inductionHypothesis _
        _ ≤ 256 * 256 ^ rest.length :=
          Nat.mul_le_mul_right _ octetBound
        _ = 256 ^ (rest.length + 1) := by
          ring

/-- Leading zeros do not count. -/
theorem toNat_lt_dropWhile (octets : Octets) :
    toNat octets < 256 ^ (octets.dropWhile (· == 0)).length := by
  induction octets with
  | nil =>
      exact toNat_lt []
  | cons octet rest inductionHypothesis =>
      by_cases zero : octet = 0
      · have skipped : (octet == 0) = true :=
          beq_iff_eq.mpr zero
        rw [List.dropWhile_cons, if_pos skipped, zero, toNat_cons, UInt8.toNat_zero,
          Nat.zero_mul, Nat.zero_add]
        exact inductionHypothesis
      · have kept : ¬(octet == 0) = true :=
          mt beq_iff_eq.mp zero
        rw [List.dropWhile_cons, if_neg kept]
        exact toNat_lt (octet :: rest)

/-- The first octets write the number without its last places. -/
theorem toNat_take (count : ℕ) (octets : Octets) :
    toNat (octets.take count) = toNat octets / 256 ^ (octets.length - count) := by
  have whole := toNat_append (octets.take count) (octets.drop count)
  rw [List.take_append_drop, List.length_drop] at whole
  have tail := toNat_lt (octets.drop count)
  rw [List.length_drop] at tail
  have scale : 0 < 256 ^ (octets.length - count) :=
    Nat.pow_pos (by decide)
  rw [whole, Nat.mul_comm, Nat.mul_add_div scale,
    Nat.div_eq_of_lt tail, Nat.add_zero]

theorem toNat_ofNat (width number : ℕ) :
    toNat (ofNat width number) = number % 256 ^ width := by
  induction width with
  | zero =>
      rw [pow_zero, Nat.mod_one]
      rfl
  | succ width inductionHypothesis =>
      have octet :
          (UInt8.ofNat (number >>> (8 * width))).toNat =
            number / 256 ^ width % 256 := by
        rw [UInt8.toNat_ofNat', Nat.shiftRight_eq_div_pow, pow_mul]
        rfl
      rw [ofNat, toNat_cons, length_ofNat, inductionHypothesis, octet,
        Nat.mod_pow_succ]
      ring

theorem toNat_ofNat_of_lt {width number : ℕ} (bound : number < 256 ^ width) :
    toNat (ofNat width number) = number := by
  rw [toNat_ofNat, Nat.mod_eq_of_lt bound]

theorem eq_of_toNat_eq {left right : Octets} (length : left.length = right.length)
    (same : toNat left = toNat right) : left = right := by
  induction left generalizing right with
  | nil =>
      exact (List.length_eq_zero_iff.mp length.symm).symm
  | cons octet rest inductionHypothesis =>
      cases right with
      | nil =>
          cases length
      | cons other others =>
          have lengths : rest.length = others.length :=
            Nat.succ.inj length
          have restBound := toNat_lt rest
          have othersBound := toNat_lt others
          have scale : 0 < 256 ^ others.length :=
            Nat.pow_pos (by decide)
          rw [toNat_cons, toNat_cons, lengths] at same
          rw [lengths] at restBound
          have first : octet.toNat = other.toNat := by
            have quotients := congrArg (· / 256 ^ others.length) same
            simpa only [Nat.mul_comm, Nat.mul_add_div scale,
              Nat.div_eq_of_lt restBound, Nat.div_eq_of_lt othersBound,
              Nat.add_zero] using quotients
          rw [first] at same
          rw [UInt8.toNat_inj.mp first,
            inductionHypothesis lengths (Nat.add_left_cancel same)]

/-- As many octets as were read are written again. -/
theorem ofNat_toNat {width : ℕ} {octets : Octets} (length : octets.length = width) :
    ofNat width (toNat octets) = octets := by
  subst length
  exact
    eq_of_toNat_eq (length_ofNat _ _) (toNat_ofNat_of_lt (toNat_lt octets))

theorem map_ofNat_toNat (octets : Octets) :
    (octets.map UInt8.toNat).map UInt8.ofNat = octets := by
  have same : UInt8.ofNat ∘ UInt8.toNat = id :=
    funext fun _ => UInt8.ofNat_toNat
  rw [List.map_map, same, List.map_id]

theorem map_toNat_ofNat {numbers : List ℕ} (fit : ∀ number ∈ numbers, number < 256) :
    (numbers.map UInt8.ofNat).map UInt8.toNat = numbers := by
  have same :
      numbers.map (UInt8.toNat ∘ UInt8.ofNat) = numbers.map id :=
    List.map_congr_left fun number member =>
      UInt8.toNat_ofNat_of_lt (fit number member)
  rw [List.map_map, same, List.map_id]

theorem ofDigits_map_reverse (octets : Octets) :
    Nat.ofDigits 256 (octets.reverse.map UInt8.toNat) = toNat octets := by
  induction octets with
  | nil =>
      rfl
  | cons octet rest inductionHypothesis =>
      rw [List.reverse_cons, List.map_append, Nat.ofDigits_append,
        inductionHypothesis, List.map_singleton, Nat.ofDigits_singleton,
        List.length_map, List.length_reverse, toNat_cons, Nat.mul_comm,
        Nat.add_comm]

/-- A number below the bound of its width is read back, least significant octet
first. -/
theorem ofDigits_map_ofNatReversed {width number : ℕ}
    (bound : number < 256 ^ width) :
    Nat.ofDigits 256 ((ofNatReversed width number).map UInt8.toNat) = number := by
  rw [ofNatReversed, ofDigits_map_reverse, toNat_ofNat_of_lt bound]

theorem ofDigits_map_lt (octets : Octets) :
    Nat.ofDigits 256 (octets.map UInt8.toNat) < 256 ^ octets.length := by
  rw [← List.reverse_reverse octets, ofDigits_map_reverse, List.length_reverse]
  exact toNat_lt _

/-- Octets are known by how many they are and by the number that they write,
least significant octet first. -/
theorem eq_of_ofDigits_map_eq {left right : Octets}
    (length : left.length = right.length)
    (same :
      Nat.ofDigits 256 (left.map UInt8.toNat) =
        Nat.ofDigits 256 (right.map UInt8.toNat)) :
    left = right := by
  rw [← List.reverse_reverse left, ← List.reverse_reverse right,
    ofDigits_map_reverse, ofDigits_map_reverse] at same
  apply List.reverse_injective
  exact eq_of_toNat_eq (by simpa using length) same

end WalletKeys.Octets
