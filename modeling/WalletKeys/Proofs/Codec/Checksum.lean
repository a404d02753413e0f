import Mathlib.Data.Bool.AllAny
import Mathlib.Data.List.Induction
import WalletKeys.Codec.Base32
import WalletKeys.Proofs.Codec.BitStream

/-!
# Checksums of five-bit symbols

Taking in a symbol is linear in exclusive or (`ChecksumCode.push_xor`), so the
remainder of a stream that ends in given symbols is the one with zeros in their
places and then the symbols themselves, which do not yet reach the leading place
(`FitsWord.foldl_push_zero`). Hence a stream verifies exactly if it ends in the
checksum that is made for the symbols before (`FitsWord.verify_append_iff`), and
so every code has one checksum for given data (`create_unique`).
-/

namespace WalletKeys.ChecksumCode

/-- What a checksum has to hold fits a word, and so do the generators fit what it
holds. -/
structure FitsWord (code : ChecksumCode) : Prop where
  width_pos : 1 ≤ code.width
  width_le : code.width ≤ 12
  generators_lt :
    ∀ generator ∈ code.generators.toList, generator.toNat < 2 ^ (5 * code.width)

theorem fitsWord_segwit : segwit.FitsWord :=
  ⟨by decide, by decide, List.all_iff_forall_prop.mp (by decide)⟩

theorem fitsWord_cashAddr : cashAddr.FitsWord :=
  ⟨by decide, by decide, List.all_iff_forall_prop.mp (by decide)⟩

variable {code : ChecksumCode}

/-- What one generator adds to a sum, if the leading symbol has its bit. -/
def addGenerator (leading sum : UInt64) (entry : UInt64 × ℕ) : UInt64 :=
  if (leading >>> UInt64.ofNat entry.2) &&& 1 = 1 then sum ^^^ entry.1 else sum

theorem reduction_eq_foldl (code : ChecksumCode) (leading : UInt64) :
    code.reduction leading =
      code.generators.toList.zipIdx.foldl (addGenerator leading) 0 := by
  rw [reduction, ← Vector.foldl_toList, Vector.toList_zipIdx]
  rfl

theorem and_one_eq_one_iff (word : UInt64) (place : ℕ) :
    (word >>> UInt64.ofNat place) &&& 1 = 1 ↔
      word.toNat.testBit ((UInt64.ofNat place).toNat % 64) = true := by
  rw [← UInt64.toNat_inj, UInt64.toNat_and, UInt64.toNat_shiftRight,
    UInt64.toNat_one, Nat.and_one_is_mod, Nat.testBit_eq_decide_div_mod_eq,
    decide_eq_true_iff, Nat.shiftRight_eq_div_pow]

theorem addGenerator_xor (left right leftSum rightSum : UInt64) (entry : UInt64 × ℕ) :
    addGenerator (left ^^^ right) (leftSum ^^^ rightSum) entry =
      addGenerator left leftSum entry ^^^ addGenerator right rightSum entry := by
  have twice (generator : UInt64) :
      leftSum ^^^ generator ^^^ (rightSum ^^^ generator) = leftSum ^^^ rightSum := by
    calc
      leftSum ^^^ generator ^^^ (rightSum ^^^ generator) =
          leftSum ^^^ rightSum ^^^ (generator ^^^ generator) := by
        ac_rfl
      _ = leftSum ^^^ rightSum := by
        rw [UInt64.xor_self, UInt64.xor_zero]
  simp only [addGenerator, and_one_eq_one_iff, UInt64.toNat_xor, Nat.testBit_xor]
  cases left.toNat.testBit ((UInt64.ofNat entry.2).toNat % 64) with
  | false =>
      cases right.toNat.testBit ((UInt64.ofNat entry.2).toNat % 64) with
      | false =>
          rfl
      | true =>
          exact UInt64.xor_assoc leftSum rightSum entry.1
  | true =>
      cases right.toNat.testBit ((UInt64.ofNat entry.2).toNat % 64) with
      | false =>
          change leftSum ^^^ rightSum ^^^ entry.1 = leftSum ^^^ entry.1 ^^^ rightSum
          ac_rfl
      | true =>
          exact (twice entry.1).symm

theorem foldl_addGenerator_xor (left right : UInt64) (entries : List (UInt64 × ℕ))
    (leftSum rightSum : UInt64) :
    entries.foldl (addGenerator (left ^^^ right)) (leftSum ^^^ rightSum) =
      entries.foldl (addGenerator left) leftSum ^^^
        entries.foldl (addGenerator right) rightSum := by
  induction entries generalizing leftSum rightSum with
  | nil =>
      rfl
  | cons entry rest inductionHypothesis =>
      rw [List.foldl_cons, addGenerator_xor, inductionHypothesis]
      rfl

theorem reduction_xor (code : ChecksumCode) (left right : UInt64) :
    code.reduction (left ^^^ right) = code.reduction left ^^^ code.reduction right := by
  rw [reduction_eq_foldl, reduction_eq_foldl, reduction_eq_foldl,
    ← foldl_addGenerator_xor, UInt64.xor_self]

theorem xor_and (left right mask : UInt64) :
    (left ^^^ right) &&& mask = (left &&& mask) ^^^ (right &&& mask) := by
  rw [← UInt64.toNat_inj]
  simp only [UInt64.toNat_and, UInt64.toNat_xor, Nat.and_xor_distrib_right]

/-- Taking in a symbol is linear. -/
theorem push_xor (code : ChecksumCode) (left right : UInt64) (leftSymbol rightSymbol : UInt8) :
    code.push (left ^^^ right) (leftSymbol ^^^ rightSymbol) =
      code.push left leftSymbol ^^^ code.push right rightSymbol := by
  simp only [push, UInt64.shiftRight_xor, xor_and, UInt64.shiftLeft_xor,
    UInt8.toUInt64_xor, reduction_xor]
  ac_rfl

/-- Streams of the same length are taken in symbol by symbol. -/
theorem foldl_push_xor (code : ChecksumCode) (left right : UInt64)
    {leftSymbols rightSymbols : List UInt8}
    (sameLength : leftSymbols.length = rightSymbols.length) :
    (List.zipWith (· ^^^ ·) leftSymbols rightSymbols).foldl code.push (left ^^^ right) =
      leftSymbols.foldl code.push left ^^^ rightSymbols.foldl code.push right := by
  induction leftSymbols generalizing left right rightSymbols with
  | nil =>
      rw [List.length_nil] at sameLength
      rw [List.length_eq_zero_iff.mp sameLength.symm]
      rfl
  | cons leftSymbol leftRest inductionHypothesis =>
      cases rightSymbols with
      | nil =>
          cases sameLength
      | cons rightSymbol rightRest =>
          rw [List.zipWith_cons_cons, List.foldl_cons, push_xor,
            inductionHypothesis _ _ (Nat.succ.inj sameLength)]
          rfl

theorem zipWith_replicate_zero (symbols : List UInt8) :
    List.zipWith (· ^^^ ·) (List.replicate symbols.length 0) symbols = symbols := by
  induction symbols with
  | nil =>
      rfl
  | cons symbol rest inductionHypothesis =>
      rw [List.length_cons, List.replicate_succ, List.zipWith_cons_cons,
        inductionHypothesis, UInt8.zero_xor]

/-- Symbols add to a remainder what they are by themselves. -/
theorem foldl_push_eq (code : ChecksumCode) (remainder : UInt64) (symbols : List UInt8) :
    symbols.foldl code.push remainder =
      (List.replicate symbols.length 0).foldl code.push remainder ^^^
        symbols.foldl code.push 0 := by
  rw [← foldl_push_xor code remainder 0 List.length_replicate, zipWith_replicate_zero,
    UInt64.xor_zero]

/-! ## Remainders as numbers -/

theorem FitsWord.toNat_shift (fits : code.FitsWord) :
    code.shift.toNat = 5 * (code.width - 1) := by
  have narrow := fits.width_le
  exact UInt64.toNat_ofNat_of_lt' (by rw [UInt64.size]; omega)

theorem one_le_shiftLeft (places : UInt64) : 1 ≤ (1 : UInt64) <<< places := by
  have bound : 2 ^ (places.toNat % 64) < 2 ^ 64 :=
    Nat.pow_lt_pow_right (by decide) (Nat.mod_lt _ (by decide))
  rw [UInt64.le_iff_toNat_le, UInt64.toNat_shiftLeft, UInt64.toNat_one,
    Nat.one_shiftLeft, Nat.mod_eq_of_lt bound]
  exact Nat.one_le_two_pow

theorem FitsWord.toNat_others (fits : code.FitsWord) (remainder : UInt64) :
    (remainder &&& ((1 <<< code.shift) - 1)).toNat =
      remainder.toNat % 2 ^ (5 * (code.width - 1)) := by
  have narrow := fits.width_le
  have small : 2 ^ (5 * (code.width - 1)) < 2 ^ 64 :=
    Nat.pow_lt_pow_right (by decide) (by omega)
  have power : (1 <<< code.shift : UInt64).toNat = 2 ^ (5 * (code.width - 1)) := by
    rw [UInt64.toNat_shiftLeft, fits.toNat_shift, UInt64.toNat_one,
      Nat.mod_eq_of_lt (show 5 * (code.width - 1) < 64 by omega), Nat.one_shiftLeft,
      Nat.mod_eq_of_lt small]
  rw [UInt64.toNat_and, UInt64.toNat_sub_of_le _ _ (one_le_shiftLeft _), power,
    UInt64.toNat_one, Nat.and_two_pow_sub_one_eq_mod]

theorem FitsWord.reduction_lt (fits : code.FitsWord) (leading : UInt64) :
    (code.reduction leading).toNat < 2 ^ (5 * code.width) := by
  rw [reduction_eq_foldl]
  refine
    List.foldlRecOn
      (motive := fun sum : UInt64 => sum.toNat < 2 ^ (5 * code.width)) _ _
      (Nat.two_pow_pos _) ?_
  intro sum bound entry member
  have entryBound : entry.1.toNat < 2 ^ (5 * code.width) :=
    fits.generators_lt entry.1 (List.fst_mem_of_mem_zipIdx member)
  unfold addGenerator
  split
  · rw [UInt64.toNat_xor]
    exact Nat.xor_lt_two_pow bound entryBound
  · exact bound

theorem reduction_zero (code : ChecksumCode) : code.reduction 0 = 0 := by
  have twice := reduction_xor code 0 0
  rwa [UInt64.xor_self, UInt64.xor_self] at twice

theorem FitsWord.toNat_push (fits : code.FitsWord) (remainder : UInt64) (symbol : UInt8) :
    (code.push remainder symbol).toNat =
      (remainder.toNat % 2 ^ (5 * (code.width - 1))) <<< 5 ^^^ symbol.toNat ^^^
        (code.reduction (remainder >>> code.shift)).toNat := by
  have narrow := fits.width_le
  have small : remainder.toNat % 2 ^ (5 * (code.width - 1)) < 2 ^ 55 :=
    (Nat.mod_lt _ (Nat.two_pow_pos _)).trans_le
      (Nat.pow_le_pow_right (by decide) (by omega))
  have room : (remainder.toNat % 2 ^ (5 * (code.width - 1))) <<< 5 < 2 ^ 64 := by
    rw [Nat.shiftLeft_eq]
    omega
  rw [push, UInt64.toNat_xor, UInt64.toNat_xor, UInt64.toNat_shiftLeft,
    fits.toNat_others, UInt8.toNat_toUInt64]
  rw [show (5 : UInt64).toNat % 64 = 5 from rfl, Nat.mod_eq_of_lt room]

theorem FitsWord.push_lt (fits : code.FitsWord) (remainder : UInt64) {symbol : UInt8}
    (bound : symbol.toNat < 2 ^ (5 * code.width)) :
    (code.push remainder symbol).toNat < 2 ^ (5 * code.width) := by
  have wide := fits.width_pos
  have others :
      (remainder.toNat % 2 ^ (5 * (code.width - 1))) <<< 5 < 2 ^ (5 * code.width) := by
    have whole : 5 * code.width = 5 * (code.width - 1) + 5 := by
      omega
    rw [Nat.shiftLeft_eq, whole, pow_add]
    exact Nat.mul_lt_mul_of_pos_right (Nat.mod_lt _ (Nat.two_pow_pos _)) (by decide)
  rw [fits.toNat_push]
  exact Nat.xor_lt_two_pow (Nat.xor_lt_two_pow others bound) (fits.reduction_lt _)

theorem FitsWord.toNat_leading (fits : code.FitsWord) (remainder : UInt64) :
    (remainder >>> code.shift).toNat =
      remainder.toNat / 2 ^ (5 * (code.width - 1)) := by
  have narrow := fits.width_le
  rw [UInt64.toNat_shiftRight, fits.toNat_shift,
    Nat.mod_eq_of_lt (show 5 * (code.width - 1) < 64 by omega),
    Nat.shiftRight_eq_div_pow]

/-- The leading place of a small remainder is empty. -/
theorem FitsWord.toNat_push_of_lt (fits : code.FitsWord) {remainder : UInt64}
    (small : remainder.toNat < 2 ^ (5 * (code.width - 1))) (symbol : UInt8) :
    (code.push remainder symbol).toNat = remainder.toNat <<< 5 ^^^ symbol.toNat := by
  have empty : remainder >>> code.shift = 0 := by
    rw [← UInt64.toNat_inj, fits.toNat_leading, Nat.div_eq_of_lt small]
    rfl
  rw [fits.toNat_push, empty, reduction_zero, Nat.mod_eq_of_lt small, UInt64.toNat_zero,
    Nat.xor_zero]

theorem FitsWord.foldl_push_lt (fits : code.FitsWord) {symbols : List UInt8}
    (fit : SymbolsFit 5 symbols) (nonempty : symbols ≠ []) (remainder : UInt64) :
    (symbols.foldl code.push remainder).toNat < 2 ^ (5 * code.width) := by
  have wide := fits.width_pos
  have last := symbols.getLast_mem nonempty
  rw [← List.dropLast_concat_getLast nonempty, List.foldl_append]
  exact
    fits.push_lt _
      ((fit _ last).trans_le (Nat.pow_le_pow_right (by decide) (by omega)))

/-- As long as nothing reaches the leading place, a remainder that starts from
zero has the bits of the symbols. -/
theorem FitsWord.foldl_push_zero (fits : code.FitsWord) {symbols : List UInt8}
    (fit : SymbolsFit 5 symbols) (short : symbols.length ≤ code.width) :
    (symbols.foldl code.push 0).toNat < 2 ^ (5 * symbols.length) ∧
      bits (5 * symbols.length) (symbols.foldl code.push 0).toNat =
        symbolBits 5 symbols := by
  -- The last symbol is the one taken in last, so the list grows at its end.
  induction symbols using List.reverseRecOn with
  | nil =>
      exact ⟨Nat.one_pos, rfl⟩
  | append_singleton front symbol inductionHypothesis =>
      rw [List.length_append, List.length_singleton] at short ⊢
      obtain ⟨frontFit, symbolFit⟩ := List.forall_mem_append.mp fit
      have symbolBound : symbol.toNat < 2 ^ 5 :=
        symbolFit symbol (List.mem_singleton_self symbol)
      obtain ⟨frontBound, frontBits⟩ := inductionHypothesis frontFit (by omega)
      have small :
          (front.foldl code.push 0).toNat < 2 ^ (5 * (code.width - 1)) :=
        frontBound.trans_le (Nat.pow_le_pow_right (by decide) (by omega))
      have length : 5 * (front.length + 1) = 5 * front.length + 5 := by
        ring
      rw [List.foldl_append, List.foldl_cons, List.foldl_nil,
        fits.toNat_push_of_lt small, length]
      generalize (front.foldl code.push 0).toNat = number at *
      constructor
      · refine Nat.xor_lt_two_pow ?_ ?_
        · rw [Nat.shiftLeft_eq, pow_add]
          exact Nat.mul_lt_mul_of_pos_right frontBound (by decide)
        · exact symbolBound.trans_le (Nat.pow_le_pow_right (by decide) (by omega))
      · have high : (number <<< 5 ^^^ symbol.toNat) >>> 5 = number := by
          rw [Nat.shiftRight_xor_distrib, Nat.shiftLeft_shiftRight,
            Nat.shiftRight_eq_div_pow symbol.toNat, Nat.div_eq_of_lt symbolBound,
            Nat.xor_zero]
        have low : bits 5 (number <<< 5 ^^^ symbol.toNat) = bits 5 symbol.toNat := by
          rw [bits_eq_iff]
          intro place bound
          rw [Nat.testBit_xor, Nat.testBit_shiftLeft, decide_eq_false (by omega),
            Bool.false_and, Bool.false_xor]
        rw [bits_add, high, low, frontBits, symbolBits_append, symbolBits_cons]
        exact congrArg _ (List.append_nil _).symm

/-- What the end of a stream has to add to its remainder. -/
def target (code : ChecksumCode) (symbols : List UInt8) : UInt64 :=
  code.remainder (symbols ++ List.replicate code.width 0) ^^^ 1

theorem FitsWord.target_lt (fits : code.FitsWord) (symbols : List UInt8) :
    (code.target symbols).toNat < 2 ^ (5 * code.width) := by
  have wide := fits.width_pos
  have zerosFit : SymbolsFit 5 (List.replicate code.width 0) := by
    intro symbol member
    rw [List.eq_of_mem_replicate member]
    decide
  have zeros : List.replicate code.width (0 : UInt8) ≠ [] := by
    rw [ne_eq, List.replicate_eq_nil_iff]
    omega
  rw [target, remainder, List.foldl_append, UInt64.toNat_xor]
  exact
    Nat.xor_lt_two_pow (fits.foldl_push_lt zerosFit zeros _)
      (Nat.one_lt_two_pow (by omega))

theorem FitsWord.create_eq (fits : code.FitsWord) (lead data : List UInt8) :
    code.create lead data =
      (List.range code.width).map fun place =>
        UInt8.ofNat
          (lowBits 5
            ((code.target (lead ++ data)).toNat >>>
              (code.width * 5 + 0 - (place + 1) * 5))) := by
  have narrow := fits.width_le
  rw [create]
  apply List.map_congr_left
  intro place member
  have amount :
      (UInt64.ofNat (5 * (code.width - 1 - place))).toNat % 64 =
        code.width * 5 + 0 - (place + 1) * 5 := by
    rw [UInt64.toNat_ofNat_of_lt' (by rw [UInt64.size]; omega)]
    omega
  rw [← UInt8.toNat_inj, toNat_ofNat_lowBits (by decide), UInt64.toNat_toUInt8,
    UInt64.toNat_and, UInt64.toNat_shiftRight, amount,
    show (0x1f : UInt64).toNat = 2 ^ 5 - 1 from rfl, Nat.and_two_pow_sub_one_eq_mod]
  exact Nat.mod_eq_of_lt ((Nat.mod_lt _ (by decide)).trans (by decide))

@[simp]
theorem length_create (code : ChecksumCode) (lead data : List UInt8) :
    (code.create lead data).length = code.width := by
  rw [create, List.length_map, List.length_range]

theorem FitsWord.symbolsFit_create (fits : code.FitsWord) (lead data : List UInt8) :
    SymbolsFit 5 (code.create lead data) := by
  intro symbol member
  rw [fits.create_eq] at member
  obtain ⟨place, -, rfl⟩ := List.mem_map.mp member
  rw [toNat_ofNat_lowBits (by decide)]
  exact Nat.mod_lt _ (by decide)

theorem FitsWord.symbolBits_create (fits : code.FitsWord) (lead data : List UInt8) :
    symbolBits 5 (code.create lead data) =
      bits (5 * code.width) (code.target (lead ++ data)).toNat := by
  have full :=
    symbolBits_full 5 0 code.width (code.target (lead ++ data)).toNat (by decide)
  rw [fits.create_eq, Nat.mul_comm 5]
  exact (List.append_nil _).symm.trans full

/-- A stream verifies exactly if it ends in the checksum that is made for what
comes before. -/
theorem FitsWord.verify_append_iff (fits : code.FitsWord) {lead data check : List UInt8}
    (fit : SymbolsFit 5 check) (length : check.length = code.width) :
    code.verify lead (data ++ check) = true ↔ check = code.create lead data := by
  obtain ⟨bound, checkBits⟩ := fits.foldl_push_zero fit length.le
  rw [length] at bound checkBits
  have ending :
      code.remainder (lead ++ (data ++ check)) ^^^ 1 =
        code.target (lead ++ data) ^^^ check.foldl code.push 0 := by
    rw [target, remainder, remainder, ← List.append_assoc, List.foldl_append, foldl_push_eq,
      length, ← List.foldl_append]
    ac_rfl
  have verifies :
      code.verify lead (data ++ check) = true ↔
        check.foldl code.push 0 = code.target (lead ++ data) := by
    rw [verify, beq_iff_eq, ← UInt64.xor_eq_zero_iff, ending, UInt64.xor_eq_zero_iff,
      eq_comm]
  rw [verifies]
  constructor
  · intro same
    rw [same, ← fits.symbolBits_create] at checkBits
    have sameLength : check.length = (code.create lead data).length := by
      rw [length, length_create]
    exact
      (eq_of_symbolBits_append_eq fit (fits.symbolsFit_create lead data) sameLength
        (congrArg (· ++ []) checkBits.symm)).1
  · intro same
    rw [same] at bound checkBits ⊢
    rw [fits.symbolBits_create] at checkBits
    exact UInt64.toNat_inj.mp (eq_of_bits_eq bound (fits.target_lt _) checkBits)

/-! ## Data and its checksum -/

/-- Data with the checksum behind it. -/
def checked (code : ChecksumCode) (lead data : List UInt8) : List UInt8 :=
  data ++ code.create lead data

theorem length_checked (code : ChecksumCode) (lead data : List UInt8) :
    (code.checked lead data).length = data.length + code.width := by
  rw [checked, List.length_append, length_create]

theorem take_checked (code : ChecksumCode) (lead data : List UInt8) :
    (code.checked lead data).take ((code.checked lead data).length - code.width) =
      data := by
  rw [length_checked, Nat.add_sub_cancel, checked, List.take_left]

theorem eq_of_checked_eq {lead otherLead data otherData : List UInt8}
    (same : code.checked lead data = code.checked otherLead otherData) :
    data = otherData := by
  rw [← take_checked code lead data, same, take_checked]

theorem FitsWord.symbolsFit_checked (fits : code.FitsWord) (lead : List UInt8)
    {data : List UInt8} (fit : SymbolsFit 5 data) :
    SymbolsFit 5 (code.checked lead data) :=
  List.forall_mem_append.mpr ⟨fit, fits.symbolsFit_create lead data⟩

theorem FitsWord.verify_checked (fits : code.FitsWord) (lead data : List UInt8) :
    code.verify lead (code.checked lead data) = true :=
  (fits.verify_append_iff (fits.symbolsFit_create lead data)
    (length_create code lead data)).mpr rfl

/-- A stream that verifies is data and the checksum that is made for it. -/
theorem FitsWord.eq_checked_of_verify (fits : code.FitsWord)
    {lead symbols : List UInt8} (fit : SymbolsFit 5 symbols)
    (enough : code.width ≤ symbols.length)
    (verified : code.verify lead symbols = true) :
    symbols =
      code.checked lead (symbols.take (symbols.length - code.width)) := by
  have checkFit : SymbolsFit 5 (symbols.drop (symbols.length - code.width)) :=
    fun symbol member => fit symbol (List.mem_of_mem_drop member)
  have length :
      (symbols.drop (symbols.length - code.width)).length = code.width := by
    rw [List.length_drop]
    omega
  have parts := List.take_append_drop (symbols.length - code.width) symbols
  rw [← parts, fits.verify_append_iff checkFit length] at verified
  rw [checked, ← verified, parts]

/-- In every code whose generators fit, and whatever octets the data are, a
checksum is as many symbols of five bits as the code has, and of all such symbols
behind the data it alone verifies. -/
theorem create_unique (code : ChecksumCode) (fits : code.FitsWord)
    (lead data : List UInt8) :
    (code.create lead data).length = code.width ∧
      SymbolsFit 5 (code.create lead data) ∧
        ∀ check : List UInt8, check.length = code.width → SymbolsFit 5 check →
          (code.verify lead (data ++ check) = true ↔ check = code.create lead data) :=
  ⟨length_create code lead data, fits.symbolsFit_create lead data,
    fun _ length fit => fits.verify_append_iff fit length⟩

/-- Codes of one symbol and of twelve with generators up to the bound, and data
that are more than symbols. -/
theorem create_unique_narrow_wide :
    let narrow : ChecksumCode := ⟨#v[31, 30, 28, 24, 16], 1⟩
    let wide : ChecksumCode :=
      ⟨#v[0xfffffffffffffff, 0x800000000000000, 0x123456789abcdef,
        0xedcba9876543210, 1], 12⟩
    let check : List UInt8 := [16, 22, 13, 5, 1, 18, 27, 3, 31, 16, 0, 1]
    (narrow.FitsWord ∧ narrow.verify [0xff] ([0xe0, 0xff] ++ [20]) = true ∧
        narrow.verify [0xff] ([0xe0, 0xff] ++ [21]) ≠ true) ∧
      wide.FitsWord ∧ (wide.create [0xff] [0xe0, 0xff]).length = 12 ∧
        SymbolsFit 5 (wide.create [0xff] [0xe0, 0xff]) ∧
          wide.verify [0xff] ([0xe0, 0xff] ++ check) = true ∧
            wide.verify [0xff] ([0xe0, 0xff] ++ check.reverse) ≠ true := by
  intro narrow wide check
  have narrowFits : narrow.FitsWord :=
    ⟨by decide, by decide, List.all_iff_forall_prop.mp (by decide)⟩
  have wideFits : wide.FitsWord :=
    ⟨by decide, by decide, List.all_iff_forall_prop.mp (by decide)⟩
  have narrowMade : narrow.create [0xff] [0xe0, 0xff] = [20] := by
    decide
  have wideMade : wide.create [0xff] [0xe0, 0xff] = check := by
    decide
  obtain ⟨-, -, single⟩ := create_unique narrow narrowFits [0xff] [0xe0, 0xff]
  obtain ⟨length, fit, unique⟩ := create_unique wide wideFits [0xff] [0xe0, 0xff]
  have narrowSymbol (symbol : UInt8) (bound : symbol.toNat < 2 ^ 5) :
      SymbolsFit 5 [symbol] :=
    List.forall_mem_singleton.mpr bound
  have reversed : SymbolsFit 5 check.reverse := by
    intro symbol member
    rw [List.mem_reverse, ← wideMade] at member
    exact fit symbol member
  refine ⟨⟨narrowFits, ?_, ?_⟩, wideFits, length, fit, ?_, ?_⟩
  · exact (single [20] rfl (narrowSymbol 20 (by decide))).mpr narrowMade.symm
  · rw [ne_eq, single [21] rfl (narrowSymbol 21 (by decide)), narrowMade]
    decide
  · exact (unique check rfl (wideMade ▸ fit)).mpr wideMade.symm
  · rw [ne_eq, unique check.reverse rfl reversed, wideMade]
    decide

end WalletKeys.ChecksumCode
