import WalletKeys.Proofs.Codec.Checksum

/-!
# Burst errors

A checksum code is invertible if the symbol that leaves the remainder can be told
from the last symbol of what it adds. Then remainders that differ still do after
any number of the same symbols (`FitsWord.eq_of_foldl_push_eq`). A window of no
more symbols than the checksum has is told from the remainder that it leaves
(`FitsWord.eq_of_foldl_push_window_eq`), so that changes inside one window never
verify, however long the stream is (`bursts_detected`).
-/

namespace WalletKeys.ChecksumCode

/-- What a leading symbol adds to the remainder ends in zero for none but zero:
the low five bits of the generators are independent. -/
def IsInvertible (code : ChecksumCode) : Prop :=
  ∀ leading < 2 ^ 5,
    (code.reduction (UInt64.ofNat leading)).toNat % 2 ^ 5 = 0 → leading = 0

theorem isInvertible_segwit : segwit.IsInvertible := by
  unfold IsInvertible
  decide

theorem isInvertible_cashAddr : cashAddr.IsInvertible := by
  unfold IsInvertible
  decide

variable {code : ChecksumCode}

theorem FitsWord.leading_lt (fits : code.FitsWord) {remainder : UInt64}
    (bound : remainder.toNat < 2 ^ (5 * code.width)) :
    (remainder >>> code.shift).toNat < 2 ^ 5 := by
  have wide := fits.width_pos
  have whole : 5 * code.width = 5 + 5 * (code.width - 1) := by
    omega
  rw [fits.toNat_leading, Nat.div_lt_iff_lt_mul (Nat.two_pow_pos _), ← pow_add,
    ← whole]
  exact bound

/-- A remainder that becomes zero with a zero was zero. -/
theorem FitsWord.eq_zero_of_push_zero (fits : code.FitsWord)
    (invertible : code.IsInvertible) {remainder : UInt64}
    (bound : remainder.toNat < 2 ^ (5 * code.width))
    (vanishes : code.push remainder 0 = 0) : remainder = 0 := by
  have sum := congrArg UInt64.toNat vanishes
  rw [fits.toNat_push, UInt8.toNat_zero, Nat.xor_zero, UInt64.toNat_zero,
    Nat.xor_eq_zero_iff] at sum
  -- The others stand above the last place, so what the leading symbol adds ends in zero.
  have last :
      (code.reduction (remainder >>> code.shift)).toNat % 2 ^ 5 = 0 := by
    rw [← sum, Nat.shiftLeft_eq, Nat.mul_mod_left]
  have leading : (remainder >>> code.shift).toNat = 0 :=
    invertible _ (fits.leading_lt bound) (by rwa [UInt64.ofNat_toNat])
  have others : remainder.toNat % 2 ^ (5 * (code.width - 1)) = 0 := by
    have none : remainder >>> code.shift = 0 :=
      UInt64.toNat_inj.mp leading
    rw [none, reduction_zero, UInt64.toNat_zero, Nat.shiftLeft_eq_zero_iff] at sum
    exact sum
  rw [fits.toNat_leading] at leading
  rw [← UInt64.toNat_inj, ← Nat.div_add_mod remainder.toNat, leading, others,
    Nat.mul_zero]
  rfl

/-- Remainders that differ still do after the same symbol. -/
theorem FitsWord.eq_of_push_eq (fits : code.FitsWord)
    (invertible : code.IsInvertible) {left right : UInt64}
    (leftBound : left.toNat < 2 ^ (5 * code.width))
    (rightBound : right.toNat < 2 ^ (5 * code.width)) {symbol : UInt8}
    (same : code.push left symbol = code.push right symbol) : left = right := by
  have bound : (left ^^^ right).toNat < 2 ^ (5 * code.width) := by
    rw [UInt64.toNat_xor]
    exact Nat.xor_lt_two_pow leftBound rightBound
  have vanishes : code.push (left ^^^ right) 0 = 0 := by
    rw [← UInt8.xor_self (a := symbol), push_xor, same, UInt64.xor_self]
  exact
    UInt64.xor_eq_zero_iff.mp (fits.eq_zero_of_push_zero invertible bound vanishes)

/-- Remainders that differ still do after any number of the same symbols. -/
theorem FitsWord.eq_of_foldl_push_eq (fits : code.FitsWord)
    (invertible : code.IsInvertible) {left right : UInt64}
    (leftBound : left.toNat < 2 ^ (5 * code.width))
    (rightBound : right.toNat < 2 ^ (5 * code.width)) {symbols : List UInt8}
    (fit : SymbolsFit (5 * code.width) symbols)
    (same : symbols.foldl code.push left = symbols.foldl code.push right) :
    left = right := by
  induction symbols generalizing left right with
  | nil =>
      exact same
  | cons symbol rest inductionHypothesis =>
      obtain ⟨symbolBound, restFit⟩ := symbolsFit_cons_iff.mp fit
      have next :=
        inductionHypothesis (fits.push_lt left symbolBound)
          (fits.push_lt right symbolBound) restFit same
      exact fits.eq_of_push_eq invertible leftBound rightBound next

/-- No more symbols than a remainder has are told from the remainder that they
leave. -/
theorem FitsWord.eq_of_foldl_push_window_eq (fits : code.FitsWord)
    (remainder : UInt64) {left right : List UInt8} (leftFit : SymbolsFit 5 left)
    (rightFit : SymbolsFit 5 right) (sameLength : left.length = right.length)
    (short : left.length ≤ code.width)
    (same : left.foldl code.push remainder = right.foldl code.push remainder) :
    left = right := by
  obtain ⟨-, leftBits⟩ := fits.foldl_push_zero leftFit short
  obtain ⟨-, rightBits⟩ := fits.foldl_push_zero rightFit (sameLength ▸ short)
  have sameOwn : left.foldl code.push 0 = right.foldl code.push 0 := by
    rw [foldl_push_eq code remainder left, foldl_push_eq code remainder right,
      sameLength, UInt64.xor_right_inj] at same
    exact same
  rw [sameOwn, sameLength, rightBits] at leftBits
  exact
    (eq_of_symbolBits_append_eq leftFit rightFit sameLength
      (congrArg (· ++ []) leftBits.symm)).1

/-- Streams that agree before and behind a window no longer than the checksum, and
leave the same remainder, agree in the window too. -/
theorem FitsWord.eq_of_remainder_eq (fits : code.FitsWord)
    (invertible : code.IsInvertible) (front : List UInt8)
    {left right back : List UInt8} (leftFit : SymbolsFit 5 left)
    (rightFit : SymbolsFit 5 right) (backFit : SymbolsFit (5 * code.width) back)
    (sameLength : left.length = right.length) (short : left.length ≤ code.width)
    (same :
      code.remainder (front ++ left ++ back) =
        code.remainder (front ++ right ++ back)) :
    left = right := by
  by_cases empty : left = []
  · subst empty
    exact (List.length_eq_zero_iff.mp sameLength.symm).symm
  · have nonempty : right ≠ [] := by
      rintro rfl
      exact empty (List.length_eq_zero_iff.mp sameLength)
    simp only [remainder, List.foldl_append] at same
    have atWindow :=
      fits.eq_of_foldl_push_eq invertible (fits.foldl_push_lt leftFit empty _)
        (fits.foldl_push_lt rightFit nonempty _) backFit same
    exact
      fits.eq_of_foldl_push_window_eq _ leftFit rightFit sameLength short atWindow

/-! ## Changes inside a window -/

/-- The lists have different elements, or one has none, at no places but the
`count` ones from `start` on. -/
def DifferWithin (start count : ℕ) (left right : List UInt8) : Prop :=
  ∀ place, left[place]? ≠ right[place]? → start ≤ place ∧ place < start + count

section Windows

variable {start count : ℕ} {left right : List UInt8}

theorem DifferWithin.take_eq (within : DifferWithin start count left right) :
    left.take start = right.take start := by
  apply List.ext_getElem?
  intro place
  rw [List.getElem?_take, List.getElem?_take]
  split
  · next before =>
      by_contra different
      exact absurd (within place different).1 (not_le.mpr before)
  · rfl

theorem DifferWithin.drop_eq (within : DifferWithin start count left right) :
    left.drop (start + count) = right.drop (start + count) := by
  apply List.ext_getElem?
  intro place
  rw [List.getElem?_drop, List.getElem?_drop]
  by_contra different
  have inside := (within _ different).2
  omega

theorem DifferWithin.mono (within : DifferWithin start count left right)
    {longer : ℕ} (covered : count ≤ longer) :
    DifferWithin start longer left right := by
  intro place different
  have inside := within place different
  omega

theorem differWithin_append (front left right back : List UInt8)
    (sameLength : left.length = right.length) :
    DifferWithin front.length left.length (front ++ left ++ back)
      (front ++ right ++ back) := by
  intro place different
  by_contra outside
  apply different
  rcases Nat.lt_or_ge place front.length with before | after
  · simp only [List.append_assoc, List.getElem?_append_left before]
  · have behind : front.length + left.length ≤ place := by
      omega
    rw [List.getElem?_append_right (by rwa [List.length_append]),
      List.getElem?_append_right (by rwa [List.length_append, ← sameLength]),
      List.length_append, List.length_append, sameLength]

theorem differWithin_set (symbols : List UInt8) (place : ℕ) (symbol : UInt8) :
    DifferWithin place 1 symbols (symbols.set place symbol) := by
  intro other different
  rw [List.getElem?_set] at different
  split at different
  · omega
  · exact absurd rfl different

theorem eq_append_window_append (start count : ℕ) (symbols : List UInt8) :
    symbols =
      symbols.take start ++ (symbols.drop start).take count ++
        symbols.drop (start + count) := by
  rw [List.append_assoc, ← List.drop_drop, List.take_append_drop,
    List.take_append_drop]

end Windows

/-- Two streams that verify and differ within a window no longer than the checksum
are the same. -/
theorem FitsWord.eq_of_verify_of_differWithin (fits : code.FitsWord)
    (invertible : code.IsInvertible) {lead data other : List UInt8}
    (fit : SymbolsFit 5 data) (otherFit : SymbolsFit 5 other)
    (sameLength : data.length = other.length) {start : ℕ}
    (within : DifferWithin start code.width data other)
    (verified : code.verify lead data = true)
    (otherVerified : code.verify lead other = true) : data = other := by
  have wide := fits.width_pos
  have parts := eq_append_window_append start code.width data
  have otherParts := eq_append_window_append start code.width other
  rw [← within.take_eq, ← within.drop_eq] at otherParts
  rw [verify, beq_iff_eq] at verified otherVerified
  have sameRemainder := verified.trans otherVerified.symm
  rw [parts, otherParts, ← List.append_assoc, ← List.append_assoc,
    ← List.append_assoc, ← List.append_assoc] at sameRemainder
  have windowFit {symbols : List UInt8} (symbolsFit : SymbolsFit 5 symbols) :
      SymbolsFit 5 ((symbols.drop start).take code.width) :=
    fun symbol member =>
      symbolsFit symbol (List.mem_of_mem_drop (List.mem_of_mem_take member))
  have backFit : SymbolsFit (5 * code.width) (data.drop (start + code.width)) :=
    fun symbol member =>
      (fit symbol (List.mem_of_mem_drop member)).trans_le
        (Nat.pow_le_pow_right (by decide) (by omega))
  have windowLength :
      ((data.drop start).take code.width).length =
        ((other.drop start).take code.width).length := by
    rw [List.length_take, List.length_take, List.length_drop, List.length_drop,
      sameLength]
  have sameWindow :=
    fits.eq_of_remainder_eq invertible (lead ++ data.take start) (windowFit fit)
      (windowFit otherFit) backFit windowLength (List.length_take_le _ _)
      sameRemainder
  rw [sameWindow, ← otherParts] at parts
  exact parts

theorem FitsWord.verify_eq_false_of_differWithin (fits : code.FitsWord)
    (invertible : code.IsInvertible) {lead data other : List UInt8}
    (fit : SymbolsFit 5 data) (otherFit : SymbolsFit 5 other)
    (sameLength : data.length = other.length) {start : ℕ}
    (within : DifferWithin start code.width data other) (different : data ≠ other)
    (verified : code.verify lead data = true) : code.verify lead other = false := by
  rw [← Bool.not_eq_true]
  intro otherVerified
  exact
    different
      (fits.eq_of_verify_of_differWithin invertible fit otherFit sameLength within
        verified otherVerified)

/-- Neither code verifies a stream that was changed, once it verified, inside one
window of as many symbols as the checksum has, whatever is in front and however
long it is; nor therefore one in which a single symbol was changed. -/
theorem bursts_detected :
    ∀ code ∈ [segwit, cashAddr], ∀ lead data : List UInt8,
      SymbolsFit 5 data → code.verify lead data = true →
        (∀ other : List UInt8, SymbolsFit 5 other → data.length = other.length →
          data ≠ other → (∃ start, DifferWithin start code.width data other) →
            code.verify lead other = false) ∧
          ∀ (place : ℕ) (bound : place < data.length) (symbol : UInt8),
            symbol.toNat < 2 ^ 5 → symbol ≠ data[place] →
              code.verify lead (data.set place symbol) = false := by
  intro code known lead data fit verified
  obtain ⟨fits, invertible⟩ : code.FitsWord ∧ code.IsInvertible := by
    simp only [List.mem_cons, List.not_mem_nil, or_false] at known
    rcases known with rfl | rfl
    · exact ⟨fitsWord_segwit, isInvertible_segwit⟩
    · exact ⟨fitsWord_cashAddr, isInvertible_cashAddr⟩
  constructor
  · rintro other otherFit sameLength different ⟨start, within⟩
    exact
      fits.verify_eq_false_of_differWithin invertible fit otherFit sameLength within
        different verified
  · intro place bound symbol symbolBound changed
    have otherFit : SymbolsFit 5 (data.set place symbol) := by
      intro written member
      rcases List.mem_or_eq_of_mem_set member with earlier | rfl
      · exact fit written earlier
      · exact symbolBound
    have different : data ≠ data.set place symbol := by
      intro same
      have stands := List.getElem?_set_self (a := symbol) bound
      rw [← same, List.getElem?_eq_getElem bound, Option.some.injEq] at stands
      exact changed stands.symm
    exact
      fits.verify_eq_false_of_differWithin invertible fit otherFit
        List.length_set.symm
        ((differWithin_set data place symbol).mono fits.width_pos) different verified

/-- Six symbols across the border of the data and the checksum of a segwit address,
all eight at the front of a CashAddr body, and the first symbol of it alone. -/
theorem bursts_detected_six_eight :
    let segwitLead : List UInt8 := [3, 3, 0, 2, 3]
    let segwitFront : List UInt8 :=
      [0, 14, 20, 15, 7, 13, 26, 0, 25, 18, 6, 11, 13, 8, 21, 4, 20, 3, 17, 2, 29, 3,
        12, 29, 3, 4, 15, 24, 20, 6]
    let cashLead : List UInt8 := [2, 9, 20, 3, 15, 9, 14, 3, 1, 19, 8, 0]
    let cashWindow : List UInt8 := [0, 1, 27, 10, 0, 16, 2, 19]
    let cashBack : List UInt8 :=
      [23, 22, 16, 10, 17, 2, 30, 26, 10, 5, 27, 27, 16, 26, 16, 21, 24, 14, 25, 9, 30,
        21, 12, 24, 14, 12, 4, 10, 10, 8, 13, 6, 26, 29]
    (segwit.verify segwitLead
          (segwitFront ++ [14, 30, 22, 12, 7, 9] ++ [17, 11, 21]) = true ∧
        segwit.verify segwitLead
          (segwitFront ++ [17, 1, 9, 19, 24, 22] ++ [17, 11, 21]) = false) ∧
      cashAddr.verify cashLead ([] ++ cashWindow ++ cashBack) = true ∧
        cashAddr.verify cashLead ([] ++ [31, 30, 4, 21, 31, 15, 29, 12] ++ cashBack) =
          false ∧
          cashAddr.verify cashLead (([] ++ cashWindow ++ cashBack).set 0 16) = false := by
  intro segwitLead segwitFront cashLead cashWindow cashBack
  have segwitVerified :
      segwit.verify segwitLead
        (segwitFront ++ [14, 30, 22, 12, 7, 9] ++ [17, 11, 21]) = true := by
    decide +kernel
  have cashVerified :
      cashAddr.verify cashLead ([] ++ cashWindow ++ cashBack) = true := by
    decide +kernel
  have segwitFit (window : List UInt8)
      (fit : window.all fun symbol => decide (symbol.toNat < 2 ^ 5)) :
      SymbolsFit 5 (segwitFront ++ window ++ [17, 11, 21]) :=
    List.forall_mem_append.mpr
      ⟨List.forall_mem_append.mpr
          ⟨List.all_iff_forall_prop.mp (by decide), List.all_iff_forall_prop.mp fit⟩,
        List.all_iff_forall_prop.mp (by decide)⟩
  have cashFit (window : List UInt8)
      (fit : window.all fun symbol => decide (symbol.toNat < 2 ^ 5)) :
      SymbolsFit 5 ([] ++ window ++ cashBack) :=
    List.forall_mem_append.mpr
      ⟨List.all_iff_forall_prop.mp fit, List.all_iff_forall_prop.mp (by decide)⟩
  obtain ⟨segwitBursts, -⟩ :=
    bursts_detected segwit (List.mem_cons_self ..) segwitLead _
      (segwitFit [14, 30, 22, 12, 7, 9] (by decide)) segwitVerified
  obtain ⟨cashBursts, cashSingles⟩ :=
    bursts_detected cashAddr (List.mem_cons_of_mem _ (List.mem_cons_self ..)) cashLead
      _ (cashFit cashWindow (by decide)) cashVerified
  refine ⟨⟨segwitVerified, ?_⟩, cashVerified, ?_, ?_⟩
  · exact
      segwitBursts _ (segwitFit [17, 1, 9, 19, 24, 22] (by decide)) rfl (by decide)
        ⟨_, differWithin_append segwitFront _ _ _ rfl⟩
  · exact
      cashBursts _ (cashFit [31, 30, 4, 21, 31, 15, 29, 12] (by decide)) rfl (by decide)
        ⟨_, differWithin_append [] _ _ _ rfl⟩
  · exact cashSingles 0 (by decide) 16 (by decide) (by decide)

end WalletKeys.ChecksumCode
