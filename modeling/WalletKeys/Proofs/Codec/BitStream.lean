import Mathlib.Data.Nat.Bitwise
import Mathlib.Tactic.Ring
import WalletKeys.Codec.Regroup

/-!
# Regrouping as a stream of bits

A list of symbols of one width is a string of bits, and so is a stream that is
being cut: what it has put out, followed by what is pending. Taking in a symbol
appends its bits (`Regrouping.push_bits`), so that reading keeps the whole
string. Symbols are determined by their bits, and therefore regrouping symbols
into no wider ones can be undone (`regroup_regroupFilled`), and from these symbols
alone (`eq_regroupFilled_of_regroup`).
-/

namespace WalletKeys

/-- The low `width` bits of a number, highest first. -/
def bits : (width number : ℕ) → List Bool
  | 0, _ => []
  | width + 1, number => number.testBit width :: bits width number

@[simp]
theorem length_bits (width number : ℕ) : (bits width number).length = width := by
  induction width with
  | zero =>
      rfl
  | succ width inductionHypothesis =>
      rw [bits, List.length_cons, inductionHypothesis]

theorem bits_add (high low number : ℕ) :
    bits (high + low) number = bits high (number >>> low) ++ bits low number := by
  induction high with
  | zero =>
      rw [Nat.zero_add]
      rfl
  | succ high inductionHypothesis =>
      rw [Nat.succ_add, bits, inductionHypothesis, bits, Nat.testBit_shiftRight,
        Nat.add_comm low high, List.cons_append]

theorem bits_eq_iff (width left right : ℕ) :
    bits width left = bits width right ↔
      ∀ place < width, left.testBit place = right.testBit place := by
  induction width with
  | zero =>
      simp [bits]
  | succ width inductionHypothesis =>
      rw [bits, bits, List.cons.injEq, inductionHypothesis]
      constructor
      · rintro ⟨last, others⟩ place bound
        rcases Nat.lt_succ_iff_lt_or_eq.mp bound with below | rfl
        · exact others place below
        · exact last
      · intro all
        exact
          ⟨all width (Nat.lt_succ_self width),
            fun place bound => all place (Nat.lt_succ_of_lt bound)⟩

/-- Bits above those that are asked for do not count. -/
theorem bits_mod {width count : ℕ} (covered : width ≤ count) (number : ℕ) :
    bits width (number % 2 ^ count) = bits width number := by
  rw [bits_eq_iff]
  intro place bound
  rw [Nat.testBit_mod_two_pow, decide_eq_true (by omega), Bool.true_and]

theorem eq_of_bits_eq {width left right : ℕ} (leftBound : left < 2 ^ width)
    (rightBound : right < 2 ^ width) (same : bits width left = bits width right) :
    left = right := by
  rw [bits_eq_iff] at same
  apply Nat.eq_of_testBit_eq
  intro place
  by_cases bound : place < width
  · exact same place bound
  · have scale : 2 ^ width ≤ 2 ^ place :=
      Nat.pow_le_pow_right Nat.zero_lt_two (not_lt.mp bound)
    rw [Nat.testBit_lt_two_pow (leftBound.trans_le scale),
      Nat.testBit_lt_two_pow (rightBound.trans_le scale)]

theorem bits_zero (width : ℕ) : bits width 0 = List.replicate width false := by
  induction width with
  | zero =>
      rfl
  | succ width inductionHypothesis =>
      rw [bits, inductionHypothesis, Nat.zero_testBit, List.replicate_succ]

theorem bits_shiftLeft (width places number : ℕ) :
    bits (width + places) (number <<< places) =
      bits width number ++ List.replicate places false := by
  rw [bits_add, Nat.shiftLeft_shiftRight, ← bits_zero,
    (bits_eq_iff places (number <<< places) 0).mpr]
  intro place bound
  rw [Nat.testBit_shiftLeft, decide_eq_false (by omega), Bool.false_and,
    Nat.zero_testBit]

/-- The symbols have no more than `width` bits. -/
def SymbolsFit (width : ℕ) (symbols : List UInt8) : Prop :=
  ∀ symbol ∈ symbols, symbol.toNat < 2 ^ width

theorem symbolsFit_octets (octets : List UInt8) : SymbolsFit 8 octets :=
  fun octet _ => octet.toNat_lt

theorem symbolsFit_cons_iff {width : ℕ} {symbol : UInt8} {rest : List UInt8} :
    SymbolsFit width (symbol :: rest) ↔
      symbol.toNat < 2 ^ width ∧ SymbolsFit width rest :=
  List.forall_mem_cons

theorem SymbolsFit.reverse {width : ℕ} {symbols : List UInt8}
    (fit : SymbolsFit width symbols) : SymbolsFit width symbols.reverse :=
  fun symbol member => fit symbol (List.mem_reverse.mp member)

/-- The bits of all symbols in a row. -/
def symbolBits (width : ℕ) (symbols : List UInt8) : List Bool :=
  symbols.flatMap fun symbol => bits width symbol.toNat

@[simp]
theorem symbolBits_append (width : ℕ) (front back : List UInt8) :
    symbolBits width (front ++ back) =
      symbolBits width front ++ symbolBits width back :=
  List.flatMap_append

theorem symbolBits_cons (width : ℕ) (symbol : UInt8) (rest : List UInt8) :
    symbolBits width (symbol :: rest) =
      bits width symbol.toNat ++ symbolBits width rest :=
  List.flatMap_cons

@[simp]
theorem length_symbolBits (width : ℕ) (symbols : List UInt8) :
    (symbolBits width symbols).length = width * symbols.length := by
  induction symbols with
  | nil =>
      rfl
  | cons symbol rest inductionHypothesis =>
      rw [symbolBits_cons, List.length_append, length_bits, inductionHypothesis,
        List.length_cons]
      ring

/-- As many symbols with the same bits in front of a remainder are the same
symbols. -/
theorem eq_of_symbolBits_append_eq {width : ℕ} {left right : List UInt8}
    {leftRest rightRest : List Bool} (leftFit : SymbolsFit width left)
    (rightFit : SymbolsFit width right) (sameLength : left.length = right.length)
    (same :
      symbolBits width left ++ leftRest = symbolBits width right ++ rightRest) :
    left = right ∧ leftRest = rightRest := by
  induction left generalizing right with
  | nil =>
      have empty : right = [] :=
        List.eq_nil_of_length_eq_zero sameLength.symm
      subst empty
      exact ⟨rfl, same⟩
  | cons leftSymbol left inductionHypothesis =>
      cases right with
      | nil =>
          cases sameLength
      | cons rightSymbol right =>
          rw [symbolBits_cons, symbolBits_cons, List.append_assoc,
            List.append_assoc] at same
          obtain ⟨first, others⟩ := List.append_inj same (by simp)
          obtain ⟨leftBound, leftFit⟩ := symbolsFit_cons_iff.mp leftFit
          obtain ⟨rightBound, rightFit⟩ := symbolsFit_cons_iff.mp rightFit
          have sameNumber := eq_of_bits_eq leftBound rightBound first
          obtain ⟨rfl, rest⟩ :=
            inductionHypothesis leftFit rightFit (Nat.succ.inj sameLength) others
          rw [UInt8.toNat_inj.mp sameNumber]
          exact ⟨rfl, rest⟩

theorem toNat_ofNat_lowBits {target : ℕ} (narrow : target ≤ 8) (number : ℕ) :
    (UInt8.ofNat (lowBits target number)).toNat = number % 2 ^ target := by
  have scale : 2 ^ target ≤ 2 ^ 8 :=
    Nat.pow_le_pow_right Nat.zero_lt_two narrow
  have bound : number % 2 ^ target < 2 ^ target :=
    Nat.mod_lt _ (Nat.two_pow_pos target)
  rw [lowBits, Nat.one_shiftLeft]
  exact UInt8.toNat_ofNat_of_lt (bound.trans_le scale)

/-- The full symbols of a number and the bits behind them are all its bits. -/
theorem symbolBits_full (target rest full number : ℕ) (narrow : target ≤ 8) :
    symbolBits target
          ((List.range full).map fun place =>
            UInt8.ofNat
              (lowBits target
                (number >>> (full * target + rest - (place + 1) * target)))) ++
        bits rest number =
      bits (full * target + rest) number := by
  induction full with
  | zero =>
      simp [symbolBits]
  | succ full inductionHypothesis =>
      have first :
          (full + 1) * target + rest - (0 + 1) * target = full * target + rest := by
        rw [Nat.succ_mul]
        omega
      have later (place : ℕ) :
          (full + 1) * target + rest - (place + 1 + 1) * target =
            full * target + rest - (place + 1) * target := by
        rw [Nat.succ_mul full, Nat.succ_mul (place + 1)]
        omega
      have whole :
          (full + 1) * target + rest = target + (full * target + rest) := by
        ring
      rw [List.range_succ_eq_map, List.map_cons, List.map_map, symbolBits_cons,
        first, toNat_ofNat_lowBits narrow, bits_mod le_rfl, List.append_assoc]
      simp only [Function.comp_def, Nat.succ_eq_add_one, later]
      rw [inductionHypothesis, whole, bits_add target]

namespace Regrouping

variable {source target : ℕ}

/-! ## Streams -/

/-- The bits of a stream: those of its symbols and those that are pending. -/
def bits (target : ℕ) (stream : Regrouping) : List Bool :=
  symbolBits target stream.latestFirst.reverse ++
    WalletKeys.bits stream.count stream.pending

/-- Fewer bits are pending than a symbol has, and nothing exceeds its width. -/
structure IsNormal (target : ℕ) (stream : Regrouping) : Prop where
  count_lt : stream.count < target
  pending_lt : stream.pending < 2 ^ stream.count
  fit : SymbolsFit target stream.latestFirst

theorem isNormal_start (positive : 0 < target) : start.IsNormal target :=
  ⟨positive, Nat.one_pos, fun _ member => absurd member List.not_mem_nil⟩

theorem IsNormal.push (positive : 0 < target) (narrow : target ≤ 8)
    {stream : Regrouping} (normal : stream.IsNormal target) (symbol : UInt8) :
    (push source target stream symbol).IsNormal target := by
  refine ⟨Nat.mod_lt _ positive, ?_, ?_⟩
  · simp only [Regrouping.push, lowBits, Nat.one_shiftLeft]
    exact Nat.mod_lt _ (Nat.two_pow_pos _)
  · intro made member
    simp only [Regrouping.push, List.mem_append, List.mem_reverse,
      List.mem_map] at member
    rcases member with ⟨place, -, rfl⟩ | earlier
    · rw [toNat_ofNat_lowBits narrow]
      exact Nat.mod_lt _ (Nat.two_pow_pos target)
    · exact normal.fit made earlier

/-- Taking in a symbol appends its bits. -/
theorem push_bits (narrow : target ≤ 8) (stream : Regrouping) {symbol : UInt8}
    (fits : symbol.toNat < 2 ^ source) :
    (push source target stream symbol).bits target =
      stream.bits target ++ WalletKeys.bits source symbol.toNat := by
  have appended :
      WalletKeys.bits (stream.count + source)
          (stream.pending <<< source + symbol.toNat) =
        WalletKeys.bits stream.count stream.pending ++
          WalletKeys.bits source symbol.toNat := by
    have above :
        (stream.pending <<< source + symbol.toNat) >>> source =
          stream.pending := by
      rw [Nat.shiftLeft_eq, Nat.shiftRight_eq_div_pow, Nat.mul_comm,
        Nat.mul_add_div (Nat.two_pow_pos source), Nat.div_eq_of_lt fits,
        Nat.add_zero]
    have below :
        (stream.pending <<< source + symbol.toNat) % 2 ^ source =
          symbol.toNat % 2 ^ source := by
      rw [Nat.shiftLeft_eq, Nat.mul_comm, Nat.mul_add_mod]
    rw [bits_add, above, ← bits_mod le_rfl (_ + _), below, bits_mod le_rfl]
  -- Of the bits that are pending then, the full symbols go out and the rest stays.
  have cut :
      (stream.count + source) / target * target +
          (stream.count + source) % target =
        stream.count + source := by
    rw [Nat.mul_comm]
    exact Nat.div_add_mod _ _
  have full :=
    symbolBits_full target ((stream.count + source) % target)
      ((stream.count + source) / target)
      (stream.pending <<< source + symbol.toNat) narrow
  rw [cut, appended] at full
  simp only [Regrouping.push, bits, lowBits, List.reverse_append,
    List.reverse_reverse, symbolBits_append, Nat.one_shiftLeft]
  simp only [lowBits, Nat.one_shiftLeft] at full
  rw [bits_mod le_rfl, List.append_assoc, full, List.append_assoc]

theorem foldl_push (positive : 0 < target) (narrow : target ≤ 8)
    {symbols : List UInt8} (fit : SymbolsFit source symbols)
    (stream : Regrouping) (normal : stream.IsNormal target) :
    (symbols.foldl (push source target) stream).IsNormal target ∧
      (symbols.foldl (push source target) stream).bits target =
        stream.bits target ++ symbolBits source symbols := by
  -- On the symbols, from any stream: the rest meets what the first one has left.
  induction symbols generalizing stream with
  | nil =>
      exact ⟨normal, (List.append_nil _).symm⟩
  | cons symbol rest inductionHypothesis =>
      obtain ⟨fits, restFit⟩ := symbolsFit_cons_iff.mp fit
      obtain ⟨restNormal, restBits⟩ :=
        inductionHypothesis restFit (push source target stream symbol)
          (normal.push positive narrow symbol)
      refine ⟨restNormal, ?_⟩
      rw [List.foldl_cons, restBits, push_bits narrow stream fits, symbolBits_cons,
        List.append_assoc]

theorem isNormal_read (positive : 0 < target) (narrow : target ≤ 8)
    {symbols : List UInt8} (fit : SymbolsFit source symbols) :
    (read source target symbols).IsNormal target :=
  (foldl_push positive narrow fit start (isNormal_start positive)).1

/-- Reading keeps all bits in their order. -/
theorem bits_read (positive : 0 < target) (narrow : target ≤ 8)
    {symbols : List UInt8} (fit : SymbolsFit source symbols) :
    (read source target symbols).bits target = symbolBits source symbols :=
  (foldl_push positive narrow fit start (isNormal_start positive)).2

/-- Filling appends fewer zeros than a symbol has bits. -/
theorem filled_spec (narrow : target ≤ 8) {stream : Regrouping}
    (normal : stream.IsNormal target) :
    SymbolsFit target (stream.filled target) ∧
      ∃ fill < target,
        symbolBits target (stream.filled target) =
          stream.bits target ++ List.replicate fill false := by
  obtain ⟨countBound, pendingBound, fit⟩ := normal
  have front : SymbolsFit target stream.latestFirst.reverse :=
    fit.reverse
  unfold filled bits
  by_cases none : stream.count = 0
  · rw [if_pos none, none, List.append_nil]
    exact ⟨front, 0, by omega, by simp [WalletKeys.bits]⟩
  · have width : stream.count + (target - stream.count) = target := by
      omega
    have last : stream.pending <<< (target - stream.count) < 2 ^ target := by
      rw [Nat.shiftLeft_eq]
      calc
        stream.pending * 2 ^ (target - stream.count) <
            2 ^ stream.count * 2 ^ (target - stream.count) :=
          Nat.mul_lt_mul_of_pos_right pendingBound (Nat.two_pow_pos _)
        _ = 2 ^ target := by
          rw [← pow_add, width]
    have octet : 2 ^ target ≤ 2 ^ 8 :=
      Nat.pow_le_pow_right Nat.zero_lt_two narrow
    have number :
        (UInt8.ofNat (stream.pending <<< (target - stream.count))).toNat =
          stream.pending <<< (target - stream.count) :=
      UInt8.toNat_ofNat_of_lt (last.trans_le octet)
    rw [if_neg none]
    refine ⟨?_, target - stream.count, by omega, ?_⟩
    · intro symbol member
      rcases List.mem_append.mp member with earlier | final
      · exact front symbol earlier
      · rw [List.mem_singleton.mp final, number]
        exact last
    · have padded :=
        bits_shiftLeft stream.count (target - stream.count) stream.pending
      rw [width] at padded
      rw [symbolBits_append, symbolBits_cons, number, padded, List.append_assoc,
        List.append_assoc]
      simp [symbolBits]

end Regrouping

/-! ## Regrouping -/

/-- Symbols regrouped into symbols of `target` bits, the last one filled with
zeros. -/
def regroupFilled (source target : ℕ) (symbols : List UInt8) : List UInt8 :=
  (Regrouping.read source target symbols).filled target

theorem symbolsFit_iff {width : ℕ} {symbols : List UInt8} :
    SymbolsFit width symbols ↔
      (symbols.any fun symbol => decide (1 <<< width ≤ symbol.toNat)) = false := by
  simp [SymbolsFit, Nat.one_shiftLeft]

section

variable {source target : ℕ} {symbols : List UInt8}

theorem regroup_of_not_fit (wide : ¬SymbolsFit source symbols) (pad : Bool) :
    regroup source target pad symbols = .error .invalidPadding := by
  rw [symbolsFit_iff, Bool.not_eq_false] at wide
  rw [regroup, if_pos wide]

theorem regroup_of_fit (fit : SymbolsFit source symbols) (pad : Bool) :
    regroup source target pad symbols =
      if pad then .ok (regroupFilled source target symbols)
      else (Regrouping.read source target symbols).exact source := by
  rw [regroup, symbolsFit_iff.mp fit, if_neg Bool.false_ne_true]
  rfl

/-- What is filled has the bits that went in and a few zeros. -/
theorem regroupFilled_spec (positive : 0 < target) (narrow : target ≤ 8)
    (fit : SymbolsFit source symbols) :
    SymbolsFit target (regroupFilled source target symbols) ∧
      ∃ fill < target,
        symbolBits target (regroupFilled source target symbols) =
          symbolBits source symbols ++ List.replicate fill false := by
  have filled :=
    Regrouping.filled_spec narrow (Regrouping.isNormal_read positive narrow fit)
  rwa [Regrouping.bits_read positive narrow fit] at filled

/-- Symbols whose bits are those of other symbols, up to a few zeros, are
regrouped into these. -/
theorem regroup_eq_ok_of_symbolBits {fill : ℕ} {regrouped : List UInt8}
    (narrow : target ≤ 8) (symbolsFit : SymbolsFit source symbols)
    (regroupedFit : SymbolsFit target regrouped)
    (fillSource : fill < source) (fillTarget : fill < target)
    (same :
      symbolBits source symbols =
        symbolBits target regrouped ++ List.replicate fill false) :
    regroup source target false symbols = .ok regrouped := by
  have positive : 0 < target := by
    omega
  obtain ⟨countBound, pendingBound, fit⟩ :=
    Regrouping.isNormal_read positive narrow symbolsFit
  have read := Regrouping.bits_read positive narrow symbolsFit
  rw [same, Regrouping.bits] at read
  rw [regroup_of_fit symbolsFit]
  generalize Regrouping.read source target symbols = stream at *
  -- Both sides have fewer than `target` bits behind their full symbols.
  have lengths := congrArg List.length read
  simp only [List.length_append, length_symbolBits, List.length_reverse,
    length_bits, List.length_replicate] at lengths
  have sameCount : stream.count = fill := by
    have remainders := congrArg (· % target) lengths
    simpa [Nat.mul_add_mod, Nat.mod_eq_of_lt countBound,
      Nat.mod_eq_of_lt fillTarget] using remainders
  have sameLength : stream.latestFirst.reverse.length = regrouped.length := by
    rw [sameCount, Nat.add_right_cancel_iff] at lengths
    rw [List.length_reverse]
    exact Nat.eq_of_mul_eq_mul_left positive lengths
  obtain ⟨sameSymbols, rest⟩ :=
    eq_of_symbolBits_append_eq fit.reverse regroupedFit sameLength read
  have noPending : stream.pending = 0 := by
    rw [← sameCount, ← bits_zero] at rest
    exact eq_of_bits_eq pendingBound (Nat.two_pow_pos _) rest
  have exactEnd : ¬(source ≤ stream.count ∨ stream.pending ≠ 0) := by
    rw [noPending, sameCount]
    omega
  rw [if_neg Bool.false_ne_true, Regrouping.exact, if_neg exactEnd, sameSymbols]

/-- The symbols that come out have the bits of those that went in, without a few
zeros at the end. -/
theorem symbolBits_of_regroup (positive : 0 < target) (narrow : target ≤ 8)
    {regrouped : List UInt8}
    (read : regroup source target false symbols = .ok regrouped) :
    SymbolsFit source symbols ∧ SymbolsFit target regrouped ∧
      ∃ fill, fill < source ∧ fill < target ∧
        symbolBits source symbols =
          symbolBits target regrouped ++ List.replicate fill false := by
  have symbolsFit : SymbolsFit source symbols := by
    by_contra wide
    rw [regroup_of_not_fit wide] at read
    cases read
  obtain ⟨countBound, -, fit⟩ :=
    Regrouping.isNormal_read positive narrow symbolsFit
  have same := Regrouping.bits_read positive narrow symbolsFit
  rw [regroup_of_fit symbolsFit, if_neg Bool.false_ne_true, Regrouping.exact] at read
  split at read
  · cases read
  · next exactEnd =>
      rw [not_or, not_le, not_not] at exactEnd
      cases read
      refine ⟨symbolsFit, fit.reverse, _, exactEnd.1, countBound, ?_⟩
      rw [← same, Regrouping.bits, exactEnd.2, bits_zero]

end

/-- The number of symbols that hold so many bits and fewer zeros than a symbol
has. -/
theorem eq_div_of_mul_eq_add {target count size fill : ℕ} (bound : fill < target)
    (filled : target * count = size + fill) :
    count = (size + (target - 1)) / target := by
  rw [Nat.mul_comm] at filled
  rw [eq_comm, Nat.div_eq_iff (by omega)]
  omega

section

variable {source target : ℕ}

theorem length_regroupFilled (positive : 0 < target) (narrow : target ≤ 8)
    {symbols : List UInt8} (fit : SymbolsFit source symbols) :
    (regroupFilled source target symbols).length =
      (source * symbols.length + (target - 1)) / target := by
  obtain ⟨-, fill, bound, same⟩ := regroupFilled_spec positive narrow fit
  have lengths := congrArg List.length same
  rw [List.length_append, length_symbolBits, length_symbolBits,
    List.length_replicate] at lengths
  exact eq_div_of_mul_eq_add bound lengths

/-- Symbols that were regrouped into no wider ones come back. -/
theorem regroup_regroupFilled (positive : 0 < target) (narrower : target ≤ source)
    (narrow : source ≤ 8) {symbols : List UInt8} (fit : SymbolsFit source symbols) :
    regroup target source false (regroupFilled source target symbols) =
      .ok symbols := by
  obtain ⟨filledFit, fill, bound, same⟩ :=
    regroupFilled_spec positive (narrower.trans narrow) fit
  exact
    regroup_eq_ok_of_symbolBits narrow filledFit fit bound (bound.trans_le narrower)
      same

/-- Symbols are read from no others than those into which they are regrouped. -/
theorem eq_regroupFilled_of_regroup (positive : 0 < target) (narrow : target ≤ 8)
    (sourcePositive : 0 < source) (sourceNarrow : source ≤ 8)
    {symbols regrouped : List UInt8}
    (read : regroup target source false symbols = .ok regrouped) :
    symbols = regroupFilled source target regrouped := by
  obtain ⟨fit, regroupedFit, fill, bound, -, same⟩ :=
    symbolBits_of_regroup sourcePositive sourceNarrow read
  obtain ⟨writtenFit, writtenFill, writtenBound, written⟩ :=
    regroupFilled_spec positive narrow regroupedFit
  -- Both have the same bits and less than a symbol behind them.
  have lengths := congrArg List.length same
  have writtenLengths := congrArg List.length written
  rw [List.length_append, length_symbolBits, length_symbolBits,
    List.length_replicate] at lengths writtenLengths
  have sameLength :
      symbols.length = (regroupFilled source target regrouped).length := by
    rw [length_regroupFilled positive narrow regroupedFit]
    exact eq_div_of_mul_eq_add bound lengths
  have sameFill : fill = writtenFill := by
    rw [sameLength] at lengths
    omega
  rw [sameFill, ← written] at same
  exact
    (eq_of_symbolBits_append_eq fit writtenFit sameLength
      (congrArg (· ++ []) same)).1

end

/-- Every octet fits, so that octets are regrouped whatever they are. -/
theorem regroup_octets (target : ℕ) (octets : Octets) :
    regroup 8 target true octets = .ok (regroupOctets target octets) := by
  rw [regroup_of_fit (symbolsFit_octets octets), if_pos rfl, regroupFilled,
    regroupOctets]

section

variable {target : ℕ} (positive : 0 < target) (narrow : target ≤ 8)
include positive narrow

theorem regroupOctets_spec (octets : List UInt8) :
    SymbolsFit target (regroupOctets target octets) ∧
      ∃ fill < target,
        symbolBits target (regroupOctets target octets) =
          symbolBits 8 octets ++ List.replicate fill false :=
  regroupFilled_spec positive narrow (symbolsFit_octets octets)

theorem length_regroupOctets (octets : List UInt8) :
    (regroupOctets target octets).length =
      (8 * octets.length + (target - 1)) / target :=
  length_regroupFilled positive narrow (symbolsFit_octets octets)

/-- Octets that were regrouped into symbols come back. -/
theorem regroup_regroupOctets (octets : List UInt8) :
    regroup target 8 false (regroupOctets target octets) = .ok octets :=
  regroup_regroupFilled positive narrow le_rfl (symbolsFit_octets octets)

theorem regroupOctets_injective {left right : List UInt8}
    (same : regroupOctets target left = regroupOctets target right) : left = right := by
  have read := regroup_regroupOctets positive narrow left
  rw [same, regroup_regroupOctets positive narrow right] at read
  exact (Except.ok.inj read).symm

/-- Octets are read from no other symbols than those that they are written in. -/
theorem eq_regroupOctets_of_regroup {symbols octets : List UInt8}
    (read : regroup target 8 false symbols = .ok octets) :
    symbols = regroupOctets target octets :=
  eq_regroupFilled_of_regroup positive narrow (by decide) le_rfl read

end

end WalletKeys
