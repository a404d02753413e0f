import WalletKeys.Proofs.Codec.BitStream

/-!
# Regrouping in a word

Regrouping needs one word of 32 bits. Symbols are shifted in at the bottom, and what
was put out is never cleared but lost in time at the top. The low bits of the word are
the pending bits of the stream (`WordStream.Holds`), which is all that is ever put
out, so symbols of at most eight bits are regrouped alike, however many there are
(`regroupInWord_eq`).
-/

namespace WalletKeys

/-- A stream that is cut in a word. The bits that were not put out yet are the low
`count` ones; those above them are left from symbols that were. -/
structure WordStream where
  latestFirst : List UInt8
  word : UInt32
  count : ℕ
  deriving DecidableEq, Repr

namespace WordStream

def start : WordStream := ⟨[], 0, 0⟩

/-- The low `target` bits of a word as a symbol. -/
def lowSymbol (target : ℕ) (word : UInt32) : UInt8 :=
  (word &&& ((1 <<< UInt32.ofNat target) - 1)).toUInt8

/-- Puts out symbols for as long as there are bits for one. -/
def drain (target : ℕ) (stream : WordStream) : WordStream :=
  if 0 < target ∧ target ≤ stream.count then
    let count := stream.count - target
    drain target
      ⟨lowSymbol target (stream.word >>> UInt32.ofNat count) :: stream.latestFirst,
        stream.word, count⟩
  else stream
termination_by stream.count

/-- Puts the bits of a symbol behind those of the stream. -/
def shiftIn (source : ℕ) (stream : WordStream) (symbol : UInt8) : WordStream :=
  ⟨stream.latestFirst, stream.word <<< UInt32.ofNat source ||| symbol.toUInt32,
    stream.count + source⟩

/-- Takes in one symbol of `source` bits. -/
def push (source target : ℕ) (stream : WordStream) (symbol : UInt8) :
    Except CodecError WordStream := do
  require (symbol.toUInt32 >>> UInt32.ofNat source = 0) .invalidPadding
  return drain target (stream.shiftIn source symbol)

/-- The bits left over, filled with zeros. -/
def last (target : ℕ) (stream : WordStream) : UInt8 :=
  lowSymbol target (stream.word <<< UInt32.ofNat (target - stream.count))

def finish (source target : ℕ) (pad : Bool) (stream : WordStream) :
    Except CodecError (List UInt8) :=
  if pad then
    .ok (stream.latestFirst.reverse ++
      if 0 < stream.count then [stream.last target] else [])
  else if source ≤ stream.count ∨ stream.last target ≠ 0 then .error .invalidPadding
  else .ok stream.latestFirst.reverse

end WordStream

/-- Regroups symbols in a word of 32 bits. -/
def regroupInWord (source target : ℕ) (pad : Bool) (symbols : List UInt8) :
    Except CodecError (List UInt8) := do
  let stream ← symbols.foldlM (WordStream.push source target) WordStream.start
  stream.finish source target pad

namespace WordStream

/-- A stream in a word holds a stream of the same symbols and pending bits. -/
structure Holds (target : ℕ) (stream : WordStream) (whole : Regrouping) : Prop where
  latestFirst_eq : stream.latestFirst = whole.latestFirst
  count_eq : stream.count = whole.count
  pending_eq : stream.word.toNat % 2 ^ stream.count = whole.pending
  count_lt : stream.count < target

variable {source target : ℕ}

theorem toNat_ofNat_shift {places : ℕ} (bound : places < 32) :
    (UInt32.ofNat places).toNat % 32 = places := by
  rw [UInt32.toNat_ofNat_of_lt' (bound.trans (by decide)), Nat.mod_eq_of_lt bound]

theorem one_le_shiftLeft (places : UInt32) : 1 ≤ (1 : UInt32) <<< places := by
  have bound : 2 ^ (places.toNat % 32) < 2 ^ 32 :=
    Nat.pow_lt_pow_right (by decide) (Nat.mod_lt _ (by decide))
  rw [UInt32.le_iff_toNat_le, UInt32.toNat_shiftLeft, UInt32.toNat_one,
    Nat.one_shiftLeft, Nat.mod_eq_of_lt bound]
  exact Nat.one_le_two_pow

theorem toNat_lowSymbol (narrow : target ≤ 8) (word : UInt32) :
    (lowSymbol target word).toNat = word.toNat % 2 ^ target := by
  have scale : 2 ^ target ≤ 2 ^ 8 :=
    Nat.pow_le_pow_right Nat.zero_lt_two narrow
  have power : (1 <<< UInt32.ofNat target : UInt32).toNat = 2 ^ target := by
    rw [UInt32.toNat_shiftLeft, toNat_ofNat_shift (by omega), UInt32.toNat_one,
      Nat.one_shiftLeft, Nat.mod_eq_of_lt (by omega)]
  have bound : word.toNat % 2 ^ target < 2 ^ 8 :=
    (Nat.mod_lt _ (Nat.two_pow_pos target)).trans_le scale
  rw [lowSymbol, UInt32.toNat_toUInt8, UInt32.toNat_and,
    UInt32.toNat_sub_of_le _ _ (one_le_shiftLeft _), power, UInt32.toNat_one,
    Nat.and_two_pow_sub_one_eq_mod, Nat.mod_eq_of_lt bound]

/-- Bits above those that are cut off do not count. -/
theorem shiftRight_mod {number count places : ℕ} (inside : places + target ≤ count) :
    (number % 2 ^ count) >>> places % 2 ^ target = number >>> places % 2 ^ target := by
  apply Nat.eq_of_testBit_eq
  intro place
  rw [Nat.testBit_mod_two_pow, Nat.testBit_mod_two_pow, Nat.testBit_shiftRight,
    Nat.testBit_shiftRight, Nat.testBit_mod_two_pow]
  by_cases below : place < target
  · rw [decide_eq_true (show places + place < count by omega), Bool.true_and]
  · rw [decide_eq_false below, Bool.false_and, Bool.false_and]

/-- The full symbols of a number with `count` bits, the last one first. -/
def fullSymbols (target count number : ℕ) : List UInt8 :=
  ((List.range (count / target)).map fun place =>
    UInt8.ofNat (lowBits target (number >>> (count - (place + 1) * target)))).reverse

/-- The first of the full symbols stands above all other bits. -/
theorem fullSymbols_of_le (positive : 0 < target) {count : ℕ} (enough : target ≤ count)
    (number : ℕ) :
    fullSymbols target count number =
      fullSymbols target (count - target) number ++
        [UInt8.ofNat (lowBits target (number >>> (count - target)))] := by
  have later (place : ℕ) :
      count - (place + 1 + 1) * target = count - target - (place + 1) * target := by
    rw [Nat.succ_mul (place + 1)]
    omega
  rw [fullSymbols, fullSymbols, Nat.div_eq_sub_div positive enough,
    List.range_succ_eq_map, List.map_cons, List.map_map, List.reverse_cons,
    Nat.zero_add, Nat.one_mul]
  simp only [Function.comp_def, Nat.succ_eq_add_one, later]

theorem drain_eq (positive : 0 < target) (narrow : target ≤ 8) (stream : WordStream)
    (bound : stream.count < 32) :
    drain target stream =
      ⟨fullSymbols target stream.count stream.word.toNat ++ stream.latestFirst,
        stream.word, stream.count % target⟩ := by
  fun_induction drain target stream with
  | case1 stream enough count inductionHypothesis =>
      have first :
          lowSymbol target (stream.word >>> UInt32.ofNat count) =
            UInt8.ofNat (lowBits target (stream.word.toNat >>> count)) := by
        rw [← UInt8.toNat_inj, toNat_lowSymbol narrow, toNat_ofNat_lowBits narrow,
          UInt32.toNat_shiftRight, toNat_ofNat_shift (by omega)]
      have smaller : count < 32 := by
        omega
      rw [inductionHypothesis smaller, fullSymbols_of_le positive enough.2,
        Nat.mod_eq_sub_mod enough.2, first, List.append_assoc]
      rfl
  | case2 stream few =>
      have none : stream.count < target := by
        omega
      rw [fullSymbols, Nat.div_eq_of_lt none, Nat.mod_eq_of_lt none]
      rfl

/-- Full symbols are cut from the low bits. -/
theorem fullSymbols_mod (count number : ℕ) :
    fullSymbols target count (number % 2 ^ count) = fullSymbols target count number := by
  apply congrArg List.reverse
  apply List.map_congr_left
  intro place member
  have inside : count - (place + 1) * target + target ≤ count := by
    have whole : (place + 1) * target ≤ count :=
      (Nat.mul_le_mul_right target (List.mem_range.mp member)).trans
        (Nat.div_mul_le_self count target)
    rw [Nat.succ_mul] at whole ⊢
    omega
  rw [lowBits, lowBits, Nat.one_shiftLeft, shiftRight_mod inside]

theorem shiftRight_eq_zero_iff (narrow : source ≤ 8) (symbol : UInt8) :
    symbol.toUInt32 >>> UInt32.ofNat source = 0 ↔ symbol.toNat < 2 ^ source := by
  rw [← UInt32.toNat_inj, UInt32.toNat_shiftRight, toNat_ofNat_shift (by omega),
    UInt8.toNat_toUInt32, Nat.shiftRight_eq_div_pow, UInt32.toNat_zero,
    Nat.div_eq_zero_iff_lt (Nat.two_pow_pos source)]

theorem push_eq (narrow : source ≤ 8) (stream : WordStream) (symbol : UInt8) :
    push source target stream symbol =
      if symbol.toNat < 2 ^ source then .ok (drain target (stream.shiftIn source symbol))
      else .error .invalidPadding := by
  simp only [push, require_bind, shiftRight_eq_zero_iff narrow]
  rfl

/-- A symbol that is shifted in stands below the pending bits. -/
theorem toNat_shiftIn (stream : WordStream) (room : stream.count + source ≤ 32)
    (narrow : source ≤ 8) {symbol : UInt8} (fits : symbol.toNat < 2 ^ source) :
    (stream.shiftIn source symbol).word.toNat % 2 ^ (stream.count + source) =
      (stream.word.toNat % 2 ^ stream.count) <<< source + symbol.toNat := by
  rw [shiftIn, Nat.shiftLeft_add_eq_or_of_lt fits, UInt32.toNat_or,
    UInt32.toNat_shiftLeft, toNat_ofNat_shift (by omega), UInt8.toNat_toUInt32]
  apply Nat.eq_of_testBit_eq
  intro place
  simp only [Nat.testBit_mod_two_pow, Nat.testBit_or, Nat.testBit_shiftLeft]
  by_cases inside : place < stream.count + source
  · rw [decide_eq_true inside, decide_eq_true (show place < 32 by omega)]
    by_cases shifted : source ≤ place
    · rw [decide_eq_true (show place - source < stream.count by omega)]
      simp only [Bool.true_and]
    · simp [shifted]
  · have above : symbol.toNat.testBit place = false :=
      Nat.testBit_lt_two_pow
        (fits.trans_le (Nat.pow_le_pow_right Nat.zero_lt_two (by omega)))
    rw [decide_eq_false inside,
      decide_eq_false (show ¬place - source < stream.count by omega), above]
    simp

section

variable {stream : WordStream} {whole : Regrouping}

/-- A symbol is taken in by the word as by the stream that it holds. -/
theorem Holds.drain_shiftIn (narrow : target ≤ 8) (sourceNarrow : source ≤ 8)
    (holds : stream.Holds target whole) {symbol : UInt8}
    (fits : symbol.toNat < 2 ^ source) :
    (drain target (stream.shiftIn source symbol)).Holds target
      (whole.push source target symbol) := by
  obtain ⟨latestFirst, count, pending, countBound⟩ := holds
  have positive : 0 < target := by
    omega
  have shifted := toNat_shiftIn stream (by omega) sourceNarrow fits
  rw [pending, count] at shifted
  have sameCount : (stream.shiftIn source symbol).count = whole.count + source :=
    congrArg (· + source) count
  have sameFront : (stream.shiftIn source symbol).latestFirst = whole.latestFirst :=
    latestFirst
  rw [drain_eq positive narrow _ (by omega), sameCount, sameFront]
  refine ⟨?_, rfl, ?_, Nat.mod_lt _ positive⟩
  · show fullSymbols target _ _ ++ _ = _
    rw [← fullSymbols_mod, shifted]
    rfl
  · have covered :
        2 ^ ((whole.count + source) % target) ∣ 2 ^ (whole.count + source) :=
      Nat.pow_dvd_pow 2 (Nat.mod_le _ _)
    show (stream.shiftIn source symbol).word.toNat % _ = _
    rw [← Nat.mod_mod_of_dvd _ covered, shifted, Regrouping.push, lowBits,
      Nat.one_shiftLeft]

/-- The bits left over are the pending ones. -/
theorem Holds.toNat_last (narrow : target ≤ 8) (holds : stream.Holds target whole) :
    (stream.last target).toNat = whole.pending <<< (target - whole.count) := by
  obtain ⟨-, count, pending, countBound⟩ := holds
  have width : 2 ^ target = 2 ^ stream.count * 2 ^ (target - stream.count) := by
    rw [← pow_add]
    congr 1
    omega
  have covered : 2 ^ target ∣ 2 ^ 32 :=
    Nat.pow_dvd_pow 2 (by omega)
  rw [last, toNat_lowSymbol narrow, UInt32.toNat_shiftLeft,
    toNat_ofNat_shift (by omega), Nat.mod_mod_of_dvd _ covered, Nat.shiftLeft_eq,
    width, Nat.mul_mod_mul_right, pending, count, Nat.shiftLeft_eq]

/-- At the end the word and the stream that it holds give the same symbols. -/
theorem Holds.finish_eq (narrow : target ≤ 8) (holds : stream.Holds target whole)
    (pad : Bool) :
    stream.finish source target pad =
      if pad then .ok (whole.filled target) else whole.exact source := by
  have leftOver := holds.toNat_last narrow
  have sameLast :
      stream.last target =
        UInt8.ofNat (whole.pending <<< (target - whole.count)) := by
    rw [← leftOver, UInt8.ofNat_toNat]
  have noneLeft : stream.last target ≠ 0 ↔ whole.pending ≠ 0 := by
    rw [← UInt8.toNat_inj.ne, leftOver, Nat.shiftLeft_eq, UInt8.toNat_zero,
      Nat.mul_ne_zero_iff, and_iff_left (Nat.two_pow_pos _).ne']
  obtain ⟨latestFirst, count, -, -⟩ := holds
  cases pad with
  | true =>
      simp only [finish, Regrouping.filled, if_true, latestFirst, count, sameLast,
        Nat.pos_iff_ne_zero, ite_not]
  | false =>
      simp only [finish, Regrouping.exact, Bool.false_eq_true, if_false, latestFirst,
        count, noneLeft]

theorem Holds.start (positive : 0 < target) :
    WordStream.start.Holds target Regrouping.start :=
  ⟨rfl, rfl, rfl, positive⟩

/-- All symbols are taken in by the word as by the stream that it holds. -/
theorem Holds.foldlM_push (narrow : target ≤ 8) (sourceNarrow : source ≤ 8)
    {symbols : List UInt8} (fit : SymbolsFit source symbols)
    (holds : stream.Holds target whole) :
    ∃ last,
      symbols.foldlM (push source target) stream = .ok last ∧
        last.Holds target (symbols.foldl (Regrouping.push source target) whole) := by
  induction symbols generalizing stream whole with
  | nil =>
      exact ⟨stream, rfl, holds⟩
  | cons symbol rest inductionHypothesis =>
      obtain ⟨fits, restFit⟩ := symbolsFit_cons_iff.mp fit
      rw [List.foldlM_cons, push_eq sourceNarrow, if_pos fits]
      exact
        inductionHypothesis restFit (holds.drain_shiftIn narrow sourceNarrow fits)

end

/-- Reading stops at a symbol that has more bits. -/
theorem foldlM_push_of_not_fit (sourceNarrow : source ≤ 8) {symbols : List UInt8}
    (wide : ¬SymbolsFit source symbols) (stream : WordStream) :
    symbols.foldlM (push source target) stream = .error .invalidPadding := by
  induction symbols generalizing stream with
  | nil =>
      exact absurd (fun _ member => absurd member List.not_mem_nil) wide
  | cons symbol rest inductionHypothesis =>
      rw [List.foldlM_cons, push_eq sourceNarrow]
      split
      · next fits =>
          apply inductionHypothesis
          intro restFit
          exact wide (symbolsFit_cons_iff.mpr ⟨fits, restFit⟩)
      · rfl

end WordStream

/-- A word of 32 bits holds enough of a stream of any length. -/
theorem regroupInWord_eq {source target : ℕ} (sourceNarrow : source ≤ 8)
    (positive : 0 < target) (narrow : target ≤ 8) (pad : Bool)
    (symbols : List UInt8) :
    regroupInWord source target pad symbols = regroup source target pad symbols := by
  by_cases fit : SymbolsFit source symbols
  · obtain ⟨last, read, holds⟩ :=
      WordStream.Holds.foldlM_push narrow sourceNarrow fit
        (WordStream.Holds.start positive)
    rw [regroupInWord, read, regroup_of_fit fit]
    exact holds.finish_eq narrow pad
  · rw [regroupInWord, WordStream.foldlM_push_of_not_fit sourceNarrow fit,
      regroup_of_not_fit fit]
    rfl

end WalletKeys
