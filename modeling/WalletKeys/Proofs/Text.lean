import Mathlib.Data.List.TakeWhile
import WalletKeys.Octets
import WalletKeys.Text

/-!
# Texts and their parts

Trimming leaves alone what has no blanks, and of a text that ends in such a part
it takes blanks in front only. The first separator is the one before which there
is none and the last the one behind which there is none, and parts behind
separators are found again. A text can be cut behind any of its characters by the
octets before that place (`cut?_append`). What is looked up in an alphabet is one of
its characters, also where the default stands in, and has a place of its own.
-/

namespace WalletKeys.Text

/-- None of the characters is blank. -/
def Solid (characters : List Char) : Prop :=
  ∀ character ∈ characters, isBlank character = false

-- Named, because a search may find the one that runs through every character.
instance (characters : List Char) : Decidable (Solid characters) :=
  List.decidableBAll (fun character => isBlank character = false) characters

theorem dropWhile_isBlank_of_solid {characters : List Char}
    (solid : Solid characters) : characters.dropWhile isBlank = characters := by
  rw [List.dropWhile_eq_self_iff]
  intro nonempty
  rw [Bool.not_eq_true]
  exact solid _ (List.getElem_mem nonempty)

theorem trimBlanks_append (front : List Char) {back : List Char}
    (solid : Solid back) (nonempty : back ≠ []) :
    trimBlanks (front ++ back) = front.dropWhile isBlank ++ back := by
  have leading :
      (front ++ back).dropWhile isBlank = front.dropWhile isBlank ++ back := by
    rw [List.dropWhile_append, dropWhile_isBlank_of_solid solid]
    split
    · next blank =>
        rw [List.isEmpty_iff.mp blank, List.nil_append]
    · rfl
  have trailing :
      (back.reverse ++ (front.dropWhile isBlank).reverse).dropWhile isBlank =
        back.reverse ++ (front.dropWhile isBlank).reverse := by
    have reversed : Solid back.reverse :=
      fun character member => solid character (List.mem_reverse.mp member)
    rw [List.dropWhile_append, dropWhile_isBlank_of_solid reversed, if_neg]
    simpa using nonempty
  rw [trimBlanks, leading, List.reverse_append, trailing, List.reverse_append,
    List.reverse_reverse, List.reverse_reverse]

theorem trimBlanks_of_solid {characters : List Char} (solid : Solid characters) :
    trimBlanks characters = characters := by
  by_cases empty : characters = []
  · rw [empty]
    rfl
  · exact trimBlanks_append [] solid empty

/-- All of the characters are blank. -/
def Blank (characters : List Char) : Prop :=
  ∀ character ∈ characters, isBlank character = true

theorem trimBlanks_surrounded {leading core trailing : List Char}
    (leadingBlank : Blank leading) (trailingBlank : Blank trailing)
    (solid : Solid core) (nonempty : core ≠ []) :
    trimBlanks (leading ++ core ++ trailing) = core := by
  have reversed : Solid core.reverse :=
    fun character member => solid character (List.mem_reverse.mp member)
  have behind : Blank trailing.reverse :=
    fun character member => trailingBlank character (List.mem_reverse.mp member)
  -- From the front, the first character of the core is the end of the blanks.
  have front :
      (leading ++ core ++ trailing).dropWhile isBlank = core ++ trailing := by
    obtain ⟨first, rest, rfl⟩ := List.exists_cons_of_ne_nil nonempty
    have visible := solid first (List.mem_cons_self ..)
    rw [List.append_assoc, List.dropWhile_append_of_pos leadingBlank, List.cons_append,
      List.dropWhile_cons_of_neg (Bool.eq_false_iff.mp visible)]
  rw [trimBlanks, front, List.reverse_append, List.dropWhile_append_of_pos behind,
    dropWhile_isBlank_of_solid reversed, List.reverse_reverse]

/-- What is trimmed away is blank. -/
theorem exists_blanks_trimBlanks (characters : List Char) :
    ∃ leading trailing,
      Blank leading ∧ Blank trailing ∧
        characters = leading ++ trimBlanks characters ++ trailing := by
  let rest := characters.dropWhile isBlank
  have front : characters.takeWhile isBlank ++ rest = characters :=
    List.takeWhile_append_dropWhile
  have back :
      rest.reverse.takeWhile isBlank ++ rest.reverse.dropWhile isBlank =
        rest.reverse :=
    List.takeWhile_append_dropWhile
  have split :
      trimBlanks characters ++ (rest.reverse.takeWhile isBlank).reverse = rest := by
    rw [trimBlanks, ← List.reverse_append, back, List.reverse_reverse]
  refine
    ⟨characters.takeWhile isBlank, (rest.reverse.takeWhile isBlank).reverse,
      fun _ member => List.mem_takeWhile_imp member, ?_, ?_⟩
  · intro character member
    exact List.mem_takeWhile_imp (List.mem_reverse.mp member)
  · rw [List.append_assoc, split, front]

theorem trim_of_solid {text : String} (solid : Solid text.toList) :
    trim text = text := by
  rw [trim, trimBlanks_of_solid solid, String.ofList_toList]

theorem splitLast?_eq_none {separator : Char} {characters : List Char}
    (absent : separator ∉ characters) : splitLast? separator characters = none := by
  induction characters with
  | nil =>
      rfl
  | cons character rest inductionHypothesis =>
      obtain ⟨different, others⟩ := List.ne_and_not_mem_of_not_mem_cons absent
      rw [splitLast?, inductionHypothesis others]
      exact if_neg different.symm

theorem splitLast?_append {separator : Char} (front : List Char)
    {back : List Char} (absent : separator ∉ back) :
    splitLast? separator (front ++ separator :: back) = some (front, back) := by
  induction front with
  | nil =>
      rw [List.nil_append, splitLast?, splitLast?_eq_none absent]
      exact if_pos rfl
  | cons character rest inductionHypothesis =>
      rw [List.cons_append, splitLast?, inductionHypothesis]

theorem splitFirst?_eq_none {separator : Char} {characters : List Char}
    (absent : separator ∉ characters) : splitFirst? separator characters = none := by
  induction characters with
  | nil =>
      rfl
  | cons character rest inductionHypothesis =>
      obtain ⟨different, others⟩ := List.ne_and_not_mem_of_not_mem_cons absent
      rw [splitFirst?, if_neg different.symm, inductionHypothesis others,
        Option.map_none]

theorem splitFirst?_append {separator : Char} {front : List Char}
    (absent : separator ∉ front) (back : List Char) :
    splitFirst? separator (front ++ separator :: back) = some (front, back) := by
  induction front with
  | nil =>
      exact if_pos rfl
  | cons character rest inductionHypothesis =>
      obtain ⟨different, others⟩ := List.ne_and_not_mem_of_not_mem_cons absent
      rw [List.cons_append, splitFirst?, if_neg different.symm,
        inductionHypothesis others, Option.map_some]

theorem eq_append_of_splitLast? {separator : Char} {characters : List Char}
    {parts : List Char × List Char}
    (found : splitLast? separator characters = some parts) :
    characters = parts.1 ++ separator :: parts.2 := by
  induction characters generalizing parts with
  | nil =>
      cases found
  | cons character rest inductionHypothesis =>
      rw [splitLast?] at found
      cases later : splitLast? separator rest with
      | some others =>
          rw [later] at found
          cases found
          exact congrArg (character :: ·) (inductionHypothesis later)
      | none =>
          rw [later] at found
          by_cases here : character = separator
          · rw [if_pos here] at found
            cases found
            rw [here]
            rfl
          · rw [if_neg here] at found
            cases found

theorem splitAll_ne_nil (separator : Char) (characters : List Char) :
    splitAll separator characters ≠ [] := by
  cases characters with
  | nil =>
      exact List.cons_ne_nil _ _
  | cons character rest =>
      rw [splitAll]
      split
      · exact List.cons_ne_nil _ _
      · split <;> exact List.cons_ne_nil _ _

theorem splitAll_separator_cons (separator : Char) (rest : List Char) :
    splitAll separator (separator :: rest) = [] :: splitAll separator rest := by
  rw [splitAll]
  split
  · next none =>
      exact absurd none (splitAll_ne_nil separator rest)
  · next parts =>
      rw [if_pos rfl, parts]

theorem splitAll_append {separator : Char} {front : List Char}
    (absent : separator ∉ front) {back first : List Char}
    {others : List (List Char)} (parts : splitAll separator back = first :: others) :
    splitAll separator (front ++ back) = (front ++ first) :: others := by
  induction front with
  | nil =>
      exact parts
  | cons character rest inductionHypothesis =>
      obtain ⟨different, later⟩ := List.ne_and_not_mem_of_not_mem_cons absent
      rw [List.cons_append, splitAll, inductionHypothesis later]
      exact if_neg different.symm

/-- Parts that are written behind separators are found again. -/
theorem splitAll_flatMap {separator : Char} {front : List Char}
    (absent : separator ∉ front) {parts : List (List Char)}
    (clean : ∀ part ∈ parts, separator ∉ part) :
    splitAll separator (front ++ parts.flatMap fun part => separator :: part) =
      front :: parts := by
  induction parts generalizing front with
  | nil =>
      rw [List.flatMap_nil, splitAll_append absent rfl, List.append_nil]
  | cons part rest inductionHypothesis =>
      obtain ⟨first, others⟩ := List.forall_mem_cons.mp clean
      have found :
          splitAll separator
              ((part :: rest).flatMap fun part => separator :: part) =
            [] :: part :: rest := by
        rw [List.flatMap_cons, List.cons_append, splitAll_separator_cons,
          inductionHypothesis first others]
      rw [splitAll_append absent found, List.append_nil]

/-- The parts and the separators in front of them, but for the first one, make up the
text. -/
theorem splitAll_eq_iff {separator : Char} {characters front : List Char}
    {parts : List (List Char)} :
    splitAll separator characters = front :: parts ↔
      characters = front ++ (parts.flatMap fun part => separator :: part) ∧
        ∀ part ∈ front :: parts, separator ∉ part := by
  constructor
  · intro cut
    induction characters generalizing front parts with
    | nil =>
        cases cut
        exact ⟨rfl, by simp⟩
    | cons character rest inductionHypothesis =>
        obtain ⟨first, others, later⟩ :=
          List.exists_cons_of_ne_nil (splitAll_ne_nil separator rest)
        obtain ⟨restEq, clean⟩ := inductionHypothesis later
        rw [splitAll, later] at cut
        dsimp only at cut
        split at cut
        · next same =>
            cases cut
            refine ⟨by rw [same, restEq]; rfl, ?_⟩
            exact List.forall_mem_cons.mpr ⟨List.not_mem_nil, clean⟩
        · next different =>
            cases cut
            obtain ⟨firstClean, othersClean⟩ := List.forall_mem_cons.mp clean
            refine ⟨by rw [restEq]; rfl, ?_⟩
            refine List.forall_mem_cons.mpr ⟨?_, othersClean⟩
            exact List.not_mem_cons_of_ne_of_not_mem (Ne.symm different) firstClean
  · rintro ⟨rfl, clean⟩
    obtain ⟨frontClean, partsClean⟩ := List.forall_mem_cons.mp clean
    exact splitAll_flatMap frontClean partsClean

theorem splitAll_concat {separator : Char} {part : List Char} (absent : separator ∉ part)
    (front : List Char) :
    splitAll separator (front ++ separator :: part) =
      splitAll separator front ++ [part] := by
  obtain ⟨first, others, cut⟩ :=
    List.exists_cons_of_ne_nil (splitAll_ne_nil separator front)
  obtain ⟨frontEq, clean⟩ := splitAll_eq_iff.mp cut
  rw [cut, List.cons_append, splitAll_eq_iff]
  constructor
  · rw [frontEq, List.flatMap_append, List.flatMap_singleton, List.append_assoc]
  · rw [← List.cons_append]
    exact List.forall_mem_append.mpr ⟨clean, List.forall_mem_singleton.mpr absent⟩

theorem octetCount_append (front back : List Char) :
    octetCount (front ++ back) = octetCount front + octetCount back := by
  induction front with
  | nil =>
      exact (Nat.zero_add _).symm
  | cons character rest inductionHypothesis =>
      rw [List.cons_append, octetCount, octetCount, inductionHypothesis, Nat.add_assoc]

theorem octetCount_concat {last : Char} (single : last.utf8Size = 1)
    (front : List Char) : octetCount (front ++ [last]) = octetCount front + 1 := by
  rw [octetCount_append, octetCount, octetCount, single]

theorem length_ofText (text : String) :
    (Octets.ofText text).length = octetCount text.toList := by
  rw [Octets.ofText]
  induction text.toList with
  | nil =>
      rfl
  | cons character rest inductionHypothesis =>
      rw [List.flatMap_cons, List.length_append, inductionHypothesis, octetCount,
        String.length_utf8EncodeChar]

/-- A text can be cut behind any of its characters. -/
theorem cut?_append (front back : List Char) :
    cut? (octetCount front) (front ++ back) = some (front, back) := by
  induction front with
  | nil =>
      rw [octetCount, List.nil_append, cut?]
  | cons character rest inductionHypothesis =>
      obtain ⟨count, total⟩ :=
        Nat.exists_eq_add_of_lt (Nat.add_pos_left character.utf8Size_pos (octetCount rest))
      rw [Nat.zero_add] at total
      rw [octetCount, total, List.cons_append, cut?, if_pos (by omega), ← total,
        Nat.add_sub_cancel_left, inductionHypothesis, Option.map_some]

-- The first character has two octets.
example : cut? 1 ['é', 'm'] = none ∧ cut? 2 ['é', 'm'] = some (['é'], ['m']) := by
  decide

theorem utf8EncodeChar_of_ascii {character : Char} (ascii : character.toNat ≤ 0x7f) :
    String.utf8EncodeChar character = [UInt8.ofNat character.toNat] :=
  if_pos ascii

theorem utf8Size_of_ascii {character : Char} (ascii : character.toNat ≤ 0x7f) :
    character.utf8Size = 1 := by
  rw [← String.length_utf8EncodeChar, utf8EncodeChar_of_ascii ascii]
  rfl

/-- The octets of a character outside ASCII begin outside ASCII. -/
theorem exists_utf8EncodeChar {character : Char} (beyond : 0x7f < character.toNat) :
    ∃ first others,
      String.utf8EncodeChar character = first :: others ∧ 0x7f < first := by
  have high {number : ℕ} (marked : 0x7f < number % 256) : 0x7f < UInt8.ofNat number :=
    UInt8.lt_iff_toNat_lt.mpr (UInt8.toNat_ofNat' ▸ marked)
  -- The lead octet has at least its two highest bits, whatever it says of the number.
  rw [← Char.toNat_val] at beyond
  rw [String.utf8EncodeChar, if_neg (not_le.mpr beyond)]
  split
  · exact ⟨_, _, rfl, high (by omega)⟩
  · split
    · exact ⟨_, _, rfl, high (by omega)⟩
    · exact ⟨_, _, rfl, high (by omega)⟩

/-- None of the characters is blank or a capital. -/
def Plain (characters : List Char) : Prop :=
  ∀ character ∈ characters,
    isBlank character = false ∧ character.isUpper = false

instance (characters : List Char) : Decidable (Plain characters) :=
  List.decidableBAll
    (fun character => isBlank character = false ∧ character.isUpper = false)
    characters

theorem Plain.solid {characters : List Char} (plain : Plain characters) :
    Solid characters :=
  fun character member => (plain character member).1

theorem hasUppercase_of_plain {text : String} (plain : Plain text.toList) :
    hasUppercase text = false := by
  rw [hasUppercase, List.any_eq_false]
  intro character member
  rw [(plain character member).2]
  exact Bool.false_ne_true

theorem getD_mem {alphabet : List Char} {default : Char}
    (member : default ∈ alphabet) (place : ℕ) :
    alphabet.getD place default ∈ alphabet := by
  rw [List.getD_eq_getElem?_getD]
  cases found : alphabet[place]? with
  | none =>
      exact member
  | some character =>
      exact List.mem_of_getElem? found

/-- In an alphabet without repetitions a place is found from its character
alone. -/
theorem idxOf?_eq_some_iff {alphabet : List Char} (distinct : alphabet.Nodup)
    (default : Char) {character : Char} {place : ℕ} :
    alphabet.idxOf? character = some place ↔
      place < alphabet.length ∧ character = alphabet.getD place default := by
  have stands (bound : place < alphabet.length) :
      alphabet.getD place default = alphabet[place] := by
    rw [List.getD_eq_getElem?_getD, List.getElem?_eq_getElem bound, Option.getD_some]
  rw [List.idxOf?_eq_some_iff]
  constructor
  · rintro ⟨bound, same, -⟩
    exact ⟨bound, (stands bound ▸ same).symm⟩
  · rintro ⟨bound, rfl⟩
    rw [stands bound]
    refine ⟨bound, rfl, ?_⟩
    intro earlier before same
    exact List.pairwise_iff_getElem.mp distinct earlier place _ bound before same

end WalletKeys.Text
