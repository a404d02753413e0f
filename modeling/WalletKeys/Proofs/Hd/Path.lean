import Mathlib.Data.List.Induction
import Mathlib.Data.Nat.Bitwise
import Mathlib.Data.Nat.Digits.Defs
import WalletKeys.Hd.Path
import WalletKeys.Proofs.Text

/-!
# The grammar of paths

A path is written with `m` in either case and behind it each step after a slash:
digits of a number without the highest bit, and a mark if the step is hardened
(`Path.IsWritten`). The texts that write a path between blanks are the ones that are
read, as that path (`Path.parse_eq_ok_iff`), and every other text is refused
(`Path.parse_grammar`). Every path has such a text, whatever numbers of 32 bits its
steps have, and is therefore read back (`Path.parse_text`). One path lies below
another exactly if it begins with it (`Path.below?_eq_some_iff`).
-/

namespace WalletKeys

namespace ChildNumber

/-- The number that digits write in the decimal system, the last of them counting
ones. -/
def value (digits : List Char) : ℕ :=
  Nat.ofDigits 10 (digits.reverse.map fun digit => digit.toNat - '0'.toNat)

/-- At least one digit and nothing else, for a number without the highest bit. Zeros
in front do not count. -/
structure IsNumeral (digits : List Char) : Prop where
  nonempty : digits ≠ []
  isDigit : ∀ digit ∈ digits, digit.isDigit = true
  value_lt : value digits < 2 ^ 31

/-- How a step may be written. Behind the digits a mark adds the highest bit. -/
inductive IsWritten : List Char → ChildNumber → Prop
  | plain {digits : List Char} (numeral : IsNumeral digits) :
      IsWritten digits ⟨UInt32.ofNat (value digits)⟩
  | hardened {digits : List Char} {mark : Char} (numeral : IsNumeral digits)
      (marks : mark ∈ [Text.singleQuote, 'h', 'H']) :
      IsWritten (digits ++ [mark]) ⟨UInt32.ofNat (value digits + 2 ^ 31)⟩

theorem hardenedOffset_toNat : hardenedOffset.toNat = 2 ^ 31 :=
  rfl

theorem decimal_eq_value (digits : List Char) : decimal digits = value digits := by
  -- The last digit is the one that is added last.
  induction digits using List.reverseRecOn with
  | nil =>
      rfl
  | append_singleton front digit inductionHypothesis =>
      rw [decimal, Nat.ofDigitChars_append, Nat.ofDigitChars_cons,
        Nat.ofDigitChars_nil, ← decimal, inductionHypothesis, value, value,
        List.reverse_append, List.reverse_singleton, List.singleton_append,
        List.map_cons, Nat.ofDigits_cons, Nat.add_comm]

theorem isNumeral_iff {digits : List Char} :
    IsNumeral digits ↔
      digits ≠ [] ∧ digits.all Char.isDigit ∧
        decimal digits < hardenedOffset.toNat := by
  rw [decimal_eq_value, hardenedOffset_toNat, List.all_eq_true]
  exact
    ⟨fun numeral => ⟨numeral.nonempty, numeral.isDigit, numeral.value_lt⟩,
      fun ⟨nonempty, isDigit, bound⟩ => ⟨nonempty, isDigit, bound⟩⟩

theorem isMark_iff {character : Char} :
    isMark character = true ↔ character ∈ [Text.singleQuote, 'h', 'H'] := by
  simp [isMark, or_assoc]

/-- Marks are neither digits nor blanks. -/
theorem mark_spec :
    ∀ mark ∈ [Text.singleQuote, 'h', 'H'],
      mark.isDigit = false ∧ Text.isBlank mark = false := by
  rw [List.forall_mem_cons, List.forall_mem_cons, List.forall_mem_singleton]
  decide

theorem isMark_of_isDigit {character : Char} (digit : character.isDigit = true) :
    isMark character = false := by
  rw [← Bool.not_eq_true, isMark_iff]
  intro mark
  exact Bool.false_ne_true ((mark_spec character mark).1.symm.trans digit)

theorem ofDigits_eq_ok_iff {digits : List Char} {hardened : Bool}
    {number : ChildNumber} :
    ofDigits digits hardened = .ok number ↔
      IsNumeral digits ∧
        number = ofIndex (UInt32.ofNat (value digits)) hardened := by
  rw [ofDigits, require_bind_eq_ok_iff, ← isNumeral_iff, decimal_eq_value]
  exact and_congr_right fun _ => ⟨fun same => (Except.ok.inj same).symm, (· ▸ rfl)⟩

/-- The highest bit is free in a numeral. -/
theorem IsNumeral.ofIndex_hardened {digits : List Char} (numeral : IsNumeral digits) :
    ofIndex (UInt32.ofNat (value digits)) true =
      ⟨UInt32.ofNat (value digits + 2 ^ 31)⟩ := by
  have bound := numeral.value_lt
  have joined := Nat.two_pow_add_eq_or_of_lt bound 1
  rw [Nat.mul_one] at joined
  rw [ofIndex, if_pos rfl, ChildNumber.mk.injEq, ← UInt32.toNat_inj, UInt32.toNat_or,
    hardenedOffset_toNat, UInt32.toNat_ofNat_of_lt' (bound.trans (by decide)),
    UInt32.toNat_ofNat_of_lt' (by rw [UInt32.size]; omega), Nat.or_comm, ← joined,
    Nat.add_comm]

theorem parse_concat {digits : List Char} {mark : Char} (marks : isMark mark = true) :
    parse (digits ++ [mark]) = ofDigits digits true := by
  rw [parse, List.getLast?_concat, Option.any_some, marks, List.dropLast_concat]
  rfl

theorem parse_of_unmarked {segment : List Char}
    (unmarked : segment.getLast?.any isMark = false) :
    parse segment = ofDigits segment false := by
  rw [parse, unmarked]
  rfl

/-- A segment is read as the step that it writes. -/
theorem parse_eq_ok_iff {segment : List Char} {number : ChildNumber} :
    parse segment = .ok number ↔ IsWritten segment number := by
  constructor
  · intro read
    cases segment using List.reverseRecOn with
    | nil =>
        rw [parse_of_unmarked rfl, ofDigits_eq_ok_iff] at read
        exact absurd rfl read.1.nonempty
    | append_singleton digits last =>
        cases marks : isMark last with
        | true =>
            rw [parse_concat marks, ofDigits_eq_ok_iff] at read
            obtain ⟨numeral, rfl⟩ := read
            rw [numeral.ofIndex_hardened]
            exact .hardened numeral (isMark_iff.mp marks)
        | false =>
            rw [parse_of_unmarked (by rwa [List.getLast?_concat]), ofDigits_eq_ok_iff]
              at read
            obtain ⟨numeral, rfl⟩ := read
            exact .plain numeral
  · intro written
    cases written with
    | plain numeral =>
        have unmarked : segment.getLast?.any isMark = false := by
          rw [List.getLast?_eq_some_getLast numeral.nonempty, Option.any_some]
          exact isMark_of_isDigit (numeral.isDigit _ (List.getLast_mem _))
        rw [parse_of_unmarked unmarked]
        exact ofDigits_eq_ok_iff.mpr ⟨numeral, rfl⟩
    | hardened numeral marks =>
        rw [parse_concat (isMark_iff.mpr marks)]
        exact ofDigits_eq_ok_iff.mpr ⟨numeral, numeral.ofIndex_hardened.symm⟩

theorem error_of_parse {segment : List Char} {failure : DerivationError}
    (failed : parse segment = .error failure) : failure = .badPath := by
  rw [parse, ofDigits, require_bind_eq_error_iff] at failed
  rcases failed with ⟨-, rfl⟩ | ⟨-, never⟩
  · rfl
  · cases never

theorem isNumeral_toDigits (number : ℕ) (bound : number < 2 ^ 31) :
    IsNumeral (Nat.toDigits 10 number) ∧ value (Nat.toDigits 10 number) = number := by
  have same : value (Nat.toDigits 10 number) = number := by
    rw [← decimal_eq_value]
    exact Nat.ofDigitChars_toDigits (by decide) (by decide)
  refine ⟨⟨Nat.toDigits_ne_nil, ?_, same.symm ▸ bound⟩, same⟩
  intro digit member
  exact Nat.isDigit_of_mem_toDigits (by decide) (by decide) member

/-- The text of a step writes it. -/
theorem isWritten_characters (number : ChildNumber) :
    IsWritten number.characters number := by
  rcases number with ⟨index⟩
  have bound := index.toNat_lt
  by_cases hardened : hardenedOffset ≤ index
  · have high : 2 ^ 31 ≤ index.toNat :=
      UInt32.le_iff_toNat_le.mp hardened
    have below : (index - hardenedOffset).toNat = index.toNat - 2 ^ 31 :=
      UInt32.toNat_sub_of_le _ _ hardened
    obtain ⟨numeral, same⟩ :=
      isNumeral_toDigits (index - hardenedOffset).toNat (by omega)
    have written := IsWritten.hardened numeral (List.mem_cons_self ..)
    rw [same, below, Nat.sub_add_cancel high, UInt32.ofNat_toNat, ← below] at written
    have marked : isHardened ⟨index⟩ = true :=
      decide_eq_true hardened
    rw [characters, if_pos marked]
    exact written
  · have low : index.toNat < 2 ^ 31 := by
      rwa [UInt32.le_iff_toNat_le, not_le] at hardened
    obtain ⟨numeral, same⟩ := isNumeral_toDigits _ low
    have written := IsWritten.plain numeral
    rw [same, UInt32.ofNat_toNat] at written
    have unmarked : isHardened ⟨index⟩ = false :=
      decide_eq_false hardened
    rw [characters, unmarked, if_neg Bool.false_ne_true]
    exact written

theorem isBlank_of_isDigit {character : Char} (digit : character.isDigit = true) :
    Text.isBlank character = false := by
  have bounds : 48 ≤ character.toNat ∧ character.toNat ≤ 57 := by
    simpa [Char.isDigit, UInt32.le_iff_toNat_le] using digit
  simp only [Text.isBlank, Bool.or_eq_false_iff, Bool.and_eq_false_iff,
    decide_eq_false_iff_not, beq_eq_false_iff_ne]
  omega

theorem IsWritten.isDigit_or_mark {segment : List Char} {number : ChildNumber}
    (written : IsWritten segment number) {character : Char}
    (member : character ∈ segment) :
    character.isDigit = true ∨ character ∈ [Text.singleQuote, 'h', 'H'] := by
  cases written with
  | plain numeral =>
      exact Or.inl (numeral.isDigit character member)
  | hardened numeral marks =>
      rcases List.mem_append.mp member with digit | last
      · exact Or.inl (numeral.isDigit character digit)
      · rw [List.mem_singleton.mp last]
        exact Or.inr marks

theorem IsWritten.solid {segment : List Char} {number : ChildNumber}
    (written : IsWritten segment number) : Text.Solid segment := by
  intro character member
  rcases written.isDigit_or_mark member with digit | mark
  · exact isBlank_of_isDigit digit
  · exact (mark_spec character mark).2

theorem IsWritten.slash_not_mem {segment : List Char} {number : ChildNumber}
    (written : IsWritten segment number) : '/' ∉ segment := by
  intro member
  have noStep :
      ¬('/'.isDigit = true ∨ '/' ∈ [Text.singleQuote, 'h', 'H']) := by
    decide
  exact noStep (written.isDigit_or_mark member)

end ChildNumber

/-! ## Written paths -/

namespace Path

/-- How a path may be written. -/
inductive IsWritten : List Char → Path → Prop
  | top {letter : Char} (isTop : letter = 'm' ∨ letter = 'M') : IsWritten [letter] []
  | step {front segment : List Char} {path : Path} {number : ChildNumber}
      (before : IsWritten front path) (written : number.IsWritten segment) :
      IsWritten (front ++ '/' :: segment) (path ++ [number])

/-- The text writes a path between blanks. -/
def IsTextOf (path : Path) (text : String) : Prop :=
  ∃ leading characters trailing,
    Text.Blank leading ∧ Text.Blank trailing ∧
      text.toList = leading ++ characters ++ trailing ∧ IsWritten characters path

theorem IsWritten.solid {characters : List Char} {path : Path}
    (written : IsWritten characters path) : Text.Solid characters := by
  induction written with
  | top isTop =>
      rcases isTop with rfl | rfl <;> decide
  | step before written inductionHypothesis =>
      refine List.forall_mem_append.mpr ⟨inductionHypothesis, ?_⟩
      exact List.forall_mem_cons.mpr ⟨by decide, written.solid⟩

theorem IsWritten.ne_nil {characters : List Char} {path : Path}
    (written : IsWritten characters path) : characters ≠ [] := by
  cases written with
  | top =>
      exact List.cons_ne_nil _ _
  | step =>
      exact List.append_ne_nil_of_right_ne_nil _ (List.cons_ne_nil _ _)

theorem mapM_concat_eq_ok_iff {segments : List (List Char)} {segment : List Char}
    {path : Path} :
    (segments ++ [segment]).mapM ChildNumber.parse = .ok path ↔
      ∃ front number,
        segments.mapM ChildNumber.parse = .ok front ∧
          ChildNumber.parse segment = .ok number ∧ path = front ++ [number] := by
  simp only [List.mapM_append, List.mapM_cons, List.mapM_nil, bind_eq_ok_iff]
  constructor
  · rintro ⟨front, before, _, ⟨number, last, _, none, same⟩, whole⟩
    cases none
    cases same
    cases whole
    exact ⟨front, number, before, last, rfl⟩
  · rintro ⟨front, number, before, last, rfl⟩
    exact ⟨front, before, [number], ⟨number, last, [], rfl, rfl⟩, rfl⟩

/-- The segments between the slashes write the steps one by one. -/
theorem isWritten_iff {characters : List Char} {path : Path} :
    IsWritten characters path ↔
      ∃ top segments,
        Text.splitAll '/' characters = top :: segments ∧ (top = ['m'] ∨ top = ['M']) ∧
          segments.mapM ChildNumber.parse = .ok path := by
  constructor
  · intro written
    induction written with
    | top isTop =>
        refine ⟨_, [], ?_, isTop.imp (congrArg ([·])) (congrArg ([·])), rfl⟩
        rcases isTop with rfl | rfl <;> rfl
    | @step front segment path number before written inductionHypothesis =>
        obtain ⟨top, segments, cut, isTop, read⟩ := inductionHypothesis
        refine ⟨top, segments ++ [segment], ?_, isTop, ?_⟩
        · rw [Text.splitAll_concat written.slash_not_mem, cut, List.cons_append]
        · exact
            mapM_concat_eq_ok_iff.mpr
              ⟨_, _, read, ChildNumber.parse_eq_ok_iff.mpr written, rfl⟩
  · rintro ⟨top, segments, cut, isTop, read⟩
    obtain ⟨rfl, -⟩ := Text.splitAll_eq_iff.mp cut
    clear cut
    induction segments using List.reverseRecOn generalizing path with
    | nil =>
        cases read
        rw [List.flatMap_nil, List.append_nil]
        rcases isTop with rfl | rfl
        · exact .top (Or.inl rfl)
        · exact .top (Or.inr rfl)
    | append_singleton segments segment inductionHypothesis =>
        obtain ⟨front, number, before, last, rfl⟩ := mapM_concat_eq_ok_iff.mp read
        rw [List.flatMap_append, List.flatMap_singleton, ← List.append_assoc]
        exact
          .step (inductionHypothesis before) (ChildNumber.parse_eq_ok_iff.mp last)

/-- The text of a path writes it. -/
theorem isWritten_text (path : Path) : IsWritten path.text.toList path := by
  rw [text, String.toList_ofList]
  induction path using List.reverseRecOn with
  | nil =>
      exact .top (Or.inl rfl)
  | append_singleton path number inductionHypothesis =>
      rw [List.flatMap_append, List.flatMap_singleton, ← List.cons_append]
      exact .step inductionHypothesis number.isWritten_characters

theorem parse_eq_ok_iff_isWritten {text : String} {path : Path} :
    parse text = .ok path ↔ IsWritten (Text.trimBlanks text.toList) path := by
  rw [isWritten_iff, parse]
  obtain ⟨top, segments, cut⟩ :=
    List.exists_cons_of_ne_nil
      (Text.splitAll_ne_nil '/' (Text.trimBlanks text.toList))
  rw [cut]
  dsimp only
  constructor
  · intro read
    split at read
    · next isTop => exact ⟨top, segments, rfl, isTop, read⟩
    · cases read
  · rintro ⟨_, _, same, isTop, read⟩
    cases same
    rw [if_pos isTop]
    exact read

/-- A text is read as a path exactly if it writes this path between blanks. -/
theorem parse_eq_ok_iff {text : String} {path : Path} :
    parse text = .ok path ↔ path.IsTextOf text := by
  rw [parse_eq_ok_iff_isWritten]
  constructor
  · intro written
    obtain ⟨leading, trailing, leadingBlank, trailingBlank, parts⟩ :=
      Text.exists_blanks_trimBlanks text.toList
    exact ⟨leading, _, trailing, leadingBlank, trailingBlank, parts, written⟩
  · rintro ⟨leading, characters, trailing, leadingBlank, trailingBlank, parts, written⟩
    rwa [parts,
      Text.trimBlanks_surrounded leadingBlank trailingBlank written.solid
        written.ne_nil]

theorem error_of_parse {text : String} {failure : DerivationError}
    (failed : parse text = .error failure) : failure = .badPath := by
  rw [parse] at failed
  split at failed
  · cases failed
    rfl
  · split at failed
    · obtain ⟨-, segment, -, -, -, refused⟩ := mapM_eq_error_iff.mp failed
      exact ChildNumber.error_of_parse refused
    · cases failed
      rfl

/-- What is written is read back. -/
theorem parse_text (path : Path) : parse path.text = .ok path := by
  have written := path.isWritten_text
  rw [parse_eq_ok_iff_isWritten, Text.trimBlanks_of_solid written.solid]
  exact written

/-- Every path is read back from its text. The texts that are read as a path are the
ones that write it between blanks, and a text that writes no path is refused as
such. -/
theorem parse_grammar :
    (∀ path : Path, parse path.text = .ok path) ∧
      ∀ text : String,
        (∀ path : Path, parse text = .ok path ↔ path.IsTextOf text) ∧
          (parse text = .error .badPath ↔ ¬∃ path : Path, path.IsTextOf text) := by
  refine ⟨parse_text, fun text => ⟨fun _ => parse_eq_ok_iff, ?_⟩⟩
  simp only [← parse_eq_ok_iff]
  cases read : parse text with
  | ok path =>
      constructor
      · exact nofun
      · intro none
        exact absurd ⟨path, rfl⟩ none
  | error failure =>
      constructor
      · rintro - ⟨path, never⟩
        cases never
      · intro
        rw [error_of_parse read]

/-- Zeros in front, a letter in place of the mark and blanks around do not count. -/
example :
    parse " M/007h/2147483647/0H\n" =
      .ok [⟨0x80000007⟩, ⟨2147483647⟩, ⟨0x80000000⟩] := by
  decide

theorem below?_eq_some_iff {anchor path rest : Path} :
    below? anchor path = some rest ↔ path = anchor ++ rest := by
  induction anchor generalizing path with
  | nil =>
      exact ⟨Option.some.inj, congrArg some⟩
  | cons expected anchor inductionHypothesis =>
      cases path with
      | nil =>
          exact ⟨nofun, nofun⟩
      | cons number path =>
          rw [below?, List.cons_append, List.cons.injEq]
          split
          · next same =>
              rw [inductionHypothesis]
              exact ⟨fun below => ⟨same.symm, below⟩, And.right⟩
          · next different =>
              exact ⟨nofun, fun both => absurd both.1.symm different⟩

theorem below?_eq_none_iff {anchor path : Path} :
    below? anchor path = none ↔ ¬anchor <+: path := by
  rw [Option.eq_none_iff_forall_ne_some]
  constructor
  · rintro none ⟨rest, below⟩
    exact none rest (below?_eq_some_iff.mpr below.symm)
  · intro apart rest below
    exact apart ⟨rest, (below?_eq_some_iff.mp below).symm⟩

end Path

end WalletKeys
