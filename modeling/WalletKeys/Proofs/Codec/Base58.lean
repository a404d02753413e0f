import Mathlib.Data.List.TakeWhile
import Mathlib.Data.Nat.Digits.Lemmas
import WalletKeys.Codec.Base58
import WalletKeys.Proofs.OctetNumbers
import WalletKeys.Proofs.Text

/-!
# Base58 is read back

A text is read octet by octet, and a fault is told by the place of an octet. The
places before it are those of whole characters, so that the first character that is
refused is found there (`mapError_values`): reading goes character by character
(`decode_eq`), and there is always room for what is read.

A digit string that is changed into another base and back is the same again,
with its leading zeros (`Radix.convert_convert`), and every value has a
character of its own. So the reader finds what was written, and a text that is
read is the one that is written (`decode_eq_ok_iff`), also with a checksum
(`decodeChecked_eq_ok_iff`). What is refused is refused for its first character
outside the alphabet, for its length or for its checksum.
-/

namespace WalletKeys

namespace Radix

variable {base source target : ℕ} {string front back : List ℕ}

theorem ofDigits_eq (base : ℕ) (string : List ℕ) :
    ofDigits base string = Nat.ofDigits base string.reverse := by
  rw [Nat.ofDigits_eq_foldr, List.foldr_reverse, ofDigits]
  congr 1
  funext number digit
  rw [Nat.cast_id]
  ring

theorem digitsBefore_eq (oneLt : 1 < base) {fuel number : ℕ}
    (enough : number ≤ fuel) (back : List ℕ) :
    digitsBefore base fuel number back =
      (Nat.digits base number).reverse ++ back := by
  induction fuel generalizing number back with
  | zero =>
      rw [Nat.le_zero.mp enough, Nat.digits_zero]
      rfl
  | succ fuel inductionHypothesis =>
      by_cases zero : number = 0
      · rw [digitsBefore, if_pos zero, zero, Nat.digits_zero]
        rfl
      · have positive : 0 < number :=
          Nat.pos_of_ne_zero zero
        have smaller : number / base < number :=
          Nat.div_lt_self positive oneLt
        rw [digitsBefore, if_neg zero, inductionHypothesis (by omega),
          Nat.digits_def' oneLt positive, List.reverse_cons, List.append_assoc]
        rfl

theorem digits_eq (oneLt : 1 < base) (number : ℕ) :
    digits base number = (Nat.digits base number).reverse := by
  rw [digits, digitsBefore_eq oneLt le_rfl, List.append_nil]

theorem ofDigits_digits (oneLt : 1 < base) (number : ℕ) :
    ofDigits base (digits base number) = number := by
  rw [ofDigits_eq, digits_eq oneLt, List.reverse_reverse, Nat.ofDigits_digits]

theorem digit_lt (oneLt : 1 < base) {number digit : ℕ}
    (member : digit ∈ digits base number) : digit < base := by
  rw [digits_eq oneLt, List.mem_reverse] at member
  exact Nat.digits_lt_base oneLt member

theorem head?_digits (oneLt : 1 < base) (number : ℕ) :
    (digits base number).head? ≠ some 0 := by
  rw [digits_eq oneLt, List.head?_reverse]
  by_cases zero : number = 0
  · simp [zero]
  · rw [List.getLast?_eq_some_getLast (Nat.digits_ne_nil_iff_ne_zero.mpr zero),
      ne_eq, Option.some.injEq]
    exact Nat.getLast_digit_ne_zero base zero

/-- Without a leading zero the digits of the number are the digits read. -/
theorem digits_ofDigits (oneLt : 1 < base) (fits : ∀ digit ∈ string, digit < base)
    (lead : string.head? ≠ some 0) : digits base (ofDigits base string) = string := by
  have lastNonzero :
      ∀ nonempty : string.reverse ≠ [], string.reverse.getLast nonempty ≠ 0 := by
    intro nonempty zero
    apply lead
    rw [← List.getLast?_reverse, List.getLast?_eq_some_getLast nonempty, zero]
  rw [digits_eq oneLt, ofDigits_eq,
    Nat.digits_ofDigits base oneLt _ (by simpa using fits) lastNonzero,
    List.reverse_reverse]

theorem exists_zeros_append (string : List ℕ) :
    ∃ front back,
      string = front ++ back ∧ (∀ digit ∈ front, digit = 0) ∧
        back.head? ≠ some 0 := by
  refine
    ⟨string.takeWhile (· == 0), string.dropWhile (· == 0),
      List.takeWhile_append_dropWhile.symm, ?_, ?_⟩
  · intro digit member
    exact eq_of_beq (List.mem_takeWhile_imp (p := (· == 0)) member)
  · have lead := List.head?_dropWhile_not (fun digit : ℕ => digit == 0) string
    intro zero
    rw [zero] at lead
    cases lead

theorem ofDigits_zeros_append (zeros : ∀ digit ∈ front, digit = 0)
    (back : List ℕ) : ofDigits base (front ++ back) = ofDigits base back := by
  have nothing : ofDigits base front = 0 := by
    induction front with
    | nil =>
        rfl
    | cons digit rest inductionHypothesis =>
        obtain ⟨rfl, others⟩ := List.forall_mem_cons.mp zeros
        rw [ofDigits, List.foldl_cons, Nat.zero_mul]
        exact inductionHypothesis others
  rw [ofDigits, List.foldl_append]
  exact congrArg (List.foldl _ · back) nothing

theorem convert_zeros_append (zeros : ∀ digit ∈ front, digit = 0)
    (lead : back.head? ≠ some 0) :
    convert source target (front ++ back) =
      front ++ digits target (ofDigits source back) := by
  have stop : back.takeWhile (· == 0) = [] := by
    cases back with
    | nil =>
        rfl
    | cons digit rest =>
        rw [List.takeWhile_cons_of_neg]
        simpa using lead
  have zerosOnly : ∀ digit ∈ front, (digit == 0) = true :=
    fun digit member => beq_iff_eq.mpr (zeros digit member)
  rw [convert, List.takeWhile_append_of_pos zerosOnly, stop, List.append_nil,
    ofDigits_zeros_append zeros]

/-- A string of digits is the same after a change of base and back. -/
theorem convert_convert (sourceLt : 1 < source) (targetLt : 1 < target)
    (fits : ∀ digit ∈ string, digit < source) :
    convert target source (convert source target string) = string := by
  obtain ⟨front, back, rfl, zeros, lead⟩ := exists_zeros_append string
  have backFits : ∀ digit ∈ back, digit < source :=
    fun digit member => fits digit (List.mem_append_right front member)
  rw [convert_zeros_append zeros lead,
    convert_zeros_append zeros (head?_digits targetLt _),
    ofDigits_digits targetLt, digits_ofDigits sourceLt backFits lead]

/-- A larger base needs no more digits. -/
theorem length_convert_le (sourceLt : 1 < source) (le : source ≤ target)
    (fits : ∀ digit ∈ string, digit < source) :
    (convert source target string).length ≤ string.length := by
  obtain ⟨front, back, rfl, zeros, lead⟩ := exists_zeros_append string
  have targetLt : 1 < target :=
    sourceLt.trans_le le
  have backFits : ∀ digit ∈ back.reverse, digit < source :=
    fun digit member =>
      fits digit (List.mem_append_right front (List.mem_reverse.mp member))
  have bound : Nat.ofDigits source back.reverse < target ^ back.length := by
    calc
      Nat.ofDigits source back.reverse < source ^ back.reverse.length :=
        Nat.ofDigits_lt_base_pow_length sourceLt backFits
      _ = source ^ back.length := by
        rw [List.length_reverse]
      _ ≤ target ^ back.length :=
        Nat.pow_le_pow_left le back.length
  rw [convert_zeros_append zeros lead, digits_eq targetLt, ofDigits_eq,
    List.length_append, List.length_append, List.length_reverse]
  exact Nat.add_le_add_left ((Nat.digits_length_le_iff targetLt _).mpr bound) _

theorem lt_of_mem_convert (targetLt : 1 < target) {digit : ℕ}
    (member : digit ∈ convert source target string) : digit < target := by
  rcases List.mem_append.mp member with zero | written
  · rw [eq_of_beq (List.mem_takeWhile_imp (p := (· == 0)) zero)]
    exact Nat.zero_lt_of_lt targetLt
  · exact digit_lt targetLt written

end Radix

namespace Base58

/-- The value of a character, or the character that is refused. -/
def symbolValue (character : Char) : Except CodecError ℕ :=
  demand (alphabet.idxOf? character) (.invalidCharacter character)

theorem symbolValue_eq_ok_iff {character : Char} {number : ℕ} :
    symbolValue character = .ok number ↔ number < 58 ∧ character = symbol number := by
  have size : alphabet.length = 58 := by
    decide
  have distinct : alphabet.Nodup := by
    decide
  rw [symbolValue, demand_eq_ok_iff, Text.idxOf?_eq_some_iff distinct '1', size,
    symbol]

theorem symbolValue_eq_error_iff {character : Char} {failure : CodecError} :
    symbolValue character = .error failure ↔
      character ∉ alphabet ∧ failure = .invalidCharacter character := by
  rw [symbolValue, ← List.idxOf?_eq_none_iff]
  cases alphabet.idxOf? character with
  | none =>
      rw [demand_none, Except.error.injEq, eq_comm, and_iff_right rfl]
  | some place =>
      exact ⟨nofun, fun both => nomatch both.1⟩

/-- A character has a value exactly if it is in the alphabet. -/
theorem exists_symbolValue_iff {character : Char} :
    (∃ number, symbolValue character = .ok number) ↔ character ∈ alphabet := by
  cases found : symbolValue character with
  | error failure =>
      have outside := (symbolValue_eq_error_iff.mp found).1
      exact ⟨nofun, fun member => absurd member outside⟩
  | ok number =>
      refine ⟨fun _ => ?_, fun _ => ⟨number, rfl⟩⟩
      by_contra outside
      rw [symbolValue_eq_error_iff.mpr ⟨outside, rfl⟩] at found
      cases found

theorem mapM_symbolValue_eq_ok_iff {characters : List Char} {numbers : List ℕ} :
    characters.mapM symbolValue = .ok numbers ↔
      (∀ number ∈ numbers, number < 58) ∧ characters = numbers.map symbol :=
  mapM_eq_ok_iff symbolValue_eq_ok_iff

theorem ascii_of_mem_alphabet {character : Char} (member : character ∈ alphabet) :
    character.toNat ≤ 0x7f := by
  have all : (alphabet.all fun character => character.toNat ≤ 0x7f) = true := by
    decide
  exact of_decide_eq_true (List.all_eq_true.mp all character member)

theorem valueAt_of_ascii {character : Char} (ascii : character.toNat ≤ 0x7f)
    (place : ℕ) :
    valueAt (UInt8.ofNat character.toNat) place =
      demand (alphabet.idxOf? character) (.invalidCharacter character place) := by
  have number : (UInt8.ofNat character.toNat).toNat = character.toNat :=
    UInt8.toNat_ofNat_of_lt (ascii.trans_lt (by decide))
  have within : ¬0x7f < UInt8.ofNat character.toNat := by
    rw [UInt8.lt_iff_toNat_lt, number]
    exact not_lt.mpr ascii
  rw [valueAt, if_neg within, number, Char.ofNat_toNat]

/-- A character of ASCII is read from its one octet. -/
theorem values_of_ascii {character : Char} (ascii : character.toNat ≤ 0x7f)
    (place : ℕ) (rest : Octets) :
    values place (String.utf8EncodeChar character ++ rest) = (do
      let value ←
        demand (alphabet.idxOf? character) (.invalidCharacter character place)
      let others ← values (place + 1) rest
      return value :: others) := by
  rw [Text.utf8EncodeChar_of_ascii ascii, List.singleton_append, values,
    valueAt_of_ascii ascii]

/-- Any other character is refused at the first of its octets. -/
theorem values_of_not_ascii {character : Char} (beyond : 0x7f < character.toNat)
    (place : ℕ) (rest : Octets) :
    values place (String.utf8EncodeChar character ++ rest) =
      .error (.notAscii place) := by
  obtain ⟨first, others, octets, high⟩ := Text.exists_utf8EncodeChar beyond
  have stopped : valueAt first place = .error (.notAscii place) :=
    if_pos high
  rw [octets, List.cons_append, values, stopped]
  rfl

/-- The character that begins at an octet is found there in the text. -/
theorem cause_notAscii {text : String} {front back : List Char} {character : Char}
    (parts : text.toList = front ++ character :: back) :
    ReadError.cause text (.notAscii (Text.octetCount front)) =
      .invalidCharacter character := by
  rw [ReadError.cause, parts, Text.cut?_append]
  rfl

-- Inside a character none begins.
example :
    values 0 (Octets.ofText "1é0") = .error (.notAscii 1) ∧
      ReadError.cause "1é0" (.notAscii 1) = .invalidCharacter 'é' ∧
        ReadError.cause "1é0" (.notAscii 2) = .invalidCharacter replacement := by
  decide

/-- A text that is read from some character on is refused for a character, the one
that begins at the octet of the fault. -/
theorem mapError_values {text : String} {front back : List Char}
    (parts : text.toList = front ++ back) :
    (values (Text.octetCount front) (back.flatMap String.utf8EncodeChar)).mapError
        (ReadError.cause text) =
      back.mapM symbolValue := by
  -- The characters that were read move to the front, which is as long in octets as
  -- the place says.
  induction back generalizing front with
  | nil =>
      rfl
  | cons character rest inductionHypothesis =>
      rw [List.flatMap_cons, List.mapM_cons, symbolValue]
      by_cases ascii : character.toNat ≤ 0x7f
      · have others :=
          inductionHypothesis (parts.trans (List.append_cons front character rest))
        rw [Text.octetCount_concat (Text.utf8Size_of_ascii ascii)] at others
        rw [values_of_ascii ascii, ← others]
        cases alphabet.idxOf? character with
        | none =>
            rfl
        | some value =>
            cases values (Text.octetCount front + 1)
                (rest.flatMap String.utf8EncodeChar) with
            | error fault =>
                rfl
            | ok numbers =>
                rfl
      · have outside : alphabet.idxOf? character = none :=
          List.idxOf?_eq_none_iff.mpr fun member =>
            ascii (ascii_of_mem_alphabet member)
        rw [values_of_not_ascii (not_le.mp ascii), outside]
        exact congrArg Except.error (cause_notAscii parts)

theorem length_values {place : ℕ} {written : Octets} {numbers : List ℕ}
    (found : values place written = .ok numbers) :
    numbers.length = written.length := by
  induction written generalizing place numbers with
  | nil =>
      cases found
      rfl
  | cons octet rest inductionHypothesis =>
      obtain ⟨value, -, after⟩ := bind_eq_ok_iff.mp found
      obtain ⟨others, later, same⟩ := bind_eq_ok_iff.mp after
      cases same
      exact congrArg Nat.succ (inductionHypothesis later)

/-- A text is read character by character. -/
theorem decode_eq (text : String) :
    decode text = do
      let numbers ← text.toList.mapM symbolValue
      return (Radix.convert 58 256 numbers).map UInt8.ofNat := by
  have characters := mapError_values (List.nil_append text.toList).symm
  rw [decode, read, ← characters]
  change _ = (values 0 (Octets.ofText text)).mapError (ReadError.cause text) >>= _
  cases found : values 0 (Octets.ofText text) with
  | error fault =>
      rfl
  | ok numbers =>
      have read : text.toList.mapM symbolValue = .ok numbers := by
        rw [← characters]
        exact congrArg (Except.mapError (ReadError.cause text)) found
      have room :
          ((Radix.convert 58 256 numbers).map UInt8.ofNat).length ≤
            (Octets.ofText text).length := by
        rw [List.length_map, ← length_values found]
        exact
          Radix.length_convert_le (by decide) (by decide)
            (mapM_symbolValue_eq_ok_iff.mp read).1
      rw [ok_bind, require_bind, if_pos room]
      rfl

/-- A text has a one for each leading zero, and then the digits of the number to the
base 58. -/
theorem toList_encode (octets : Octets) :
    (encode octets).toList =
      List.replicate (octets.takeWhile (· == 0)).length '1' ++
        (Nat.digits 58 octets.toNat).reverse.map symbol := by
  have number : Radix.ofDigits 256 (octets.map UInt8.toNat) = octets.toNat := by
    rw [Radix.ofDigits, List.foldl_map]
    rfl
  have isZero : (· == 0) ∘ UInt8.toNat = fun octet : UInt8 => octet == 0 := by
    funext octet
    rw [Function.comp_apply, Bool.eq_iff_iff, beq_iff_eq, beq_iff_eq]
    exact UInt8.toNat_inj (b := 0)
  have ones :
      ((octets.map UInt8.toNat).takeWhile (· == 0)).map symbol =
        List.replicate (octets.takeWhile (· == 0)).length '1' := by
    rw [List.takeWhile_map, isZero, List.map_map, List.map_eq_replicate_iff]
    intro octet member
    have zero : octet = 0 :=
      eq_of_beq (List.mem_takeWhile_imp (p := (· == 0)) member)
    rw [zero]
    rfl
  rw [encode, String.toList_ofList, Radix.convert, List.map_append, ones, number,
    Radix.digits_eq (by decide)]

/-- Seven characters have room for five octets. -/
theorem pow_octets_le (count : ℕ) : 256 ^ count ≤ 58 ^ ((7 * count + 4) / 5) := by
  have fifth : (256 ^ count) ^ 5 ≤ (58 ^ ((7 * count + 4) / 5)) ^ 5 := by
    calc
      (256 ^ count) ^ 5 = (256 ^ 5) ^ count := by
        rw [← pow_mul, ← pow_mul, Nat.mul_comm]
      _ ≤ (58 ^ 7) ^ count :=
        Nat.pow_le_pow_left (by decide) count
      _ = 58 ^ (7 * count) := by
        rw [← pow_mul]
      _ ≤ 58 ^ ((7 * count + 4) / 5 * 5) :=
        Nat.pow_le_pow_right (by decide) (by omega)
      _ = (58 ^ ((7 * count + 4) / 5)) ^ 5 :=
        pow_mul _ _ _
  exact (Nat.pow_le_pow_iff_left (by decide)).mp fifth

/-- With a one for each leading zero a text is no longer than its octets need. -/
theorem length_encode_le (octets : Octets) :
    (encode octets).toList.length ≤ (7 * octets.length + 4) / 5 := by
  have parts : (octets.takeWhile (· == 0)).length + (octets.dropWhile (· == 0)).length =
      octets.length := by
    rw [← List.length_append, List.takeWhile_append_dropWhile]
  have digits :
      (Nat.digits 58 octets.toNat).length ≤
        (7 * (octets.dropWhile (· == 0)).length + 4) / 5 := by
    rw [Nat.digits_length_le_iff (by decide)]
    exact octets.toNat_lt_dropWhile.trans_le (pow_octets_le _)
  rw [toList_encode, List.length_append, List.length_replicate, List.length_map,
    List.length_reverse]
  omega

/-- A text is read exactly if it is what is written. -/
theorem decode_eq_ok_iff {text : String} {octets : Octets} :
    decode text = .ok octets ↔ text = encode octets := by
  constructor
  · intro read
    rw [decode_eq] at read
    obtain ⟨numbers, found, same⟩ := bind_eq_ok_iff.mp read
    cases same
    obtain ⟨fit, characters⟩ := mapM_symbolValue_eq_ok_iff.mp found
    have octetNumbers :
        ((Radix.convert 58 256 numbers).map UInt8.ofNat).map UInt8.toNat =
          Radix.convert 58 256 numbers :=
      Octets.map_toNat_ofNat fun digit => Radix.lt_of_mem_convert (by decide)
    rw [encode, octetNumbers, Radix.convert_convert (by decide) (by decide) fit,
      ← characters, String.ofList_toList]
  · rintro rfl
    have fit : ∀ digit ∈ octets.map UInt8.toNat, digit < 256 := by
      intro digit member
      obtain ⟨octet, -, rfl⟩ := List.mem_map.mp member
      exact octet.toNat_lt
    have written :
        ((Radix.convert 256 58 (octets.map UInt8.toNat)).map symbol).mapM symbolValue =
          .ok (Radix.convert 256 58 (octets.map UInt8.toNat)) :=
      mapM_symbolValue_eq_ok_iff.mpr
        ⟨fun digit => Radix.lt_of_mem_convert (by decide), rfl⟩
    rw [decode_eq, encode, String.toList_ofList, written, ok_bind,
      Radix.convert_convert (by decide) (by decide) fit, Octets.map_ofNat_toNat]
    rfl

theorem symbol_mem (value : ℕ) : symbol value ∈ alphabet :=
  Text.getD_mem (by decide) value

theorem mem_alphabet_of_mem_encode {octets : Octets} {character : Char}
    (member : character ∈ (encode octets).toList) : character ∈ alphabet := by
  rw [encode, String.toList_ofList] at member
  obtain ⟨value, -, rfl⟩ := List.mem_map.mp member
  exact symbol_mem value

/-- A text is refused for the first character outside the alphabet. -/
theorem decode_eq_error_iff {text : String} {failure : CodecError} :
    decode text = .error failure ↔
      ∃ front refused back,
        text.toList = front ++ refused :: back ∧
          (∀ character ∈ front, character ∈ alphabet) ∧ refused ∉ alphabet ∧
            failure = .invalidCharacter refused := by
  have passed :
      decode text = .error failure ↔
        text.toList.mapM symbolValue = .error failure := by
    rw [decode_eq, bind_eq_error_iff]
    exact or_iff_left fun ⟨_, _, failed⟩ => nomatch failed
  rw [passed, mapM_eq_error_iff]
  simp only [exists_symbolValue_iff, symbolValue_eq_error_iff]

/-- A text is read exactly if all of its characters are in the alphabet. -/
theorem exists_decode_iff {text : String} :
    (∃ octets, decode text = .ok octets) ↔
      ∀ character ∈ text.toList, character ∈ alphabet := by
  cases found : decode text with
  | error failure =>
      obtain ⟨front, refused, back, parts, -, outside, -⟩ :=
        decode_eq_error_iff.mp found
      refine ⟨nofun, fun all => absurd (all refused ?_) outside⟩
      rw [parts]
      exact List.mem_append_right front (List.mem_cons_self ..)
  | ok octets =>
      refine ⟨fun _ character member => ?_, fun _ => ⟨octets, rfl⟩⟩
      rw [decode_eq_ok_iff.mp found] at member
      exact mem_alphabet_of_mem_encode member

theorem decodeChecked_eq_ok_iff {text : String} {payload : Octets} :
    decodeChecked text = .ok payload ↔ text = encodeChecked payload := by
  constructor
  · intro read
    obtain ⟨octets, found, after⟩ := bind_eq_ok_iff.mp read
    obtain ⟨-, rest⟩ := require_bind_eq_ok_iff.mp after
    obtain ⟨check, same⟩ := require_bind_eq_ok_iff.mp rest
    cases same
    rw [decode_eq_ok_iff.mp found, encodeChecked, check, List.take_append_drop]
  · rintro rfl
    have length :
        (payload ++ (checksum payload).octets).length - 4 = payload.length := by
      rw [List.length_append, Block.length_octets, Nat.add_sub_cancel]
    have enough : 4 ≤ (payload ++ (checksum payload).octets).length := by
      rw [List.length_append, Block.length_octets]
      exact Nat.le_add_left 4 _
    rw [decodeChecked, encodeChecked, decode_eq_ok_iff.mpr rfl, ok_bind,
      require_bind, if_pos enough]
    dsimp only
    rw [length, List.take_left, List.drop_left, require_bind, if_pos rfl]
    rfl

theorem length_encodeChecked_le (payload : Octets) :
    (encodeChecked payload).toList.length ≤ (7 * payload.length + 32) / 5 := by
  have bound := length_encode_le (payload ++ (checksum payload).octets)
  rw [List.length_append, Block.length_octets] at bound
  exact bound

theorem encodeChecked_injective {left right : Octets}
    (same : encodeChecked left = encodeChecked right) : left = right := by
  have read := decodeChecked_eq_ok_iff.mpr same
  rw [decodeChecked_eq_ok_iff.mpr rfl] at read
  exact Except.ok.inj read

/-- Behind the characters only the length and the checksum can be refused. -/
theorem decodeChecked_eq_error_iff {text : String} {failure : CodecError} :
    decodeChecked text = .error failure ↔
      decode text = .error failure ∨
        ∃ octets, decode text = .ok octets ∧
          (octets.length < 4 ∧ failure = .invalidLength octets.length ∨
            4 ≤ octets.length ∧
              (checksum (octets.take (octets.length - 4))).octets ≠
                  octets.drop (octets.length - 4) ∧
                failure = .checksumMismatch) := by
  have last (octets : Octets) :
      ¬(pure (octets.take (octets.length - 4)) : Except CodecError Octets) =
        .error failure :=
    nofun
  rw [decodeChecked, bind_eq_error_iff]
  simp only [require_bind_eq_error_iff, not_le, last, and_false, or_false, ne_eq]

/-- A text has a one for each leading zero and then the digits of the number. Every
octet string is read back from what is written, and what is read is written again as
the same text, with a checksum and without one. Nothing is refused but a text with a
character outside the alphabet, for the first one; with a checksum also fewer than
four octets, and a checksum that is not the one of the octets before it. -/
theorem checked_bijective :
    (∀ octets : Octets,
      (encode octets).toList =
          List.replicate (octets.takeWhile (· == 0)).length '1' ++
            (Nat.digits 58 octets.toNat).reverse.map symbol ∧
        decode (encode octets) = .ok octets ∧
          decodeChecked (encodeChecked octets) = .ok octets) ∧
      (∀ (text : String) (octets : Octets),
        (decode text = .ok octets → encode octets = text) ∧
          (decodeChecked text = .ok octets → encodeChecked octets = text)) ∧
        ∀ text : String,
          ((∃ failure, decode text = .error failure) ↔
            ∃ character ∈ text.toList, character ∉ alphabet) ∧
            ∀ failure,
              (decode text = .error failure ↔
                ∃ front refused back,
                  text.toList = front ++ refused :: back ∧
                    (∀ character ∈ front, character ∈ alphabet) ∧
                      refused ∉ alphabet ∧ failure = .invalidCharacter refused) ∧
                (decodeChecked text = .error failure ↔
                  decode text = .error failure ∨
                    ∃ octets, decode text = .ok octets ∧
                      (octets.length < 4 ∧
                          failure = .invalidLength octets.length ∨
                        4 ≤ octets.length ∧
                          (checksum (octets.take (octets.length - 4))).octets ≠
                              octets.drop (octets.length - 4) ∧
                            failure = .checksumMismatch)) := by
  refine ⟨?_, ?_, ?_⟩
  · intro octets
    exact
      ⟨toList_encode octets, decode_eq_ok_iff.mpr rfl,
        decodeChecked_eq_ok_iff.mpr rfl⟩
  · intro text octets
    exact
      ⟨fun read => (decode_eq_ok_iff.mp read).symm,
        fun read => (decodeChecked_eq_ok_iff.mp read).symm⟩
  · intro text
    refine ⟨?_, fun failure => ⟨decode_eq_error_iff, decodeChecked_eq_error_iff⟩⟩
    rw [← not_iff_not]
    push Not
    rw [← exists_decode_iff]
    cases decode text with
    | error failure =>
        exact ⟨fun never => absurd rfl (never failure), nofun⟩
    | ok octets =>
        exact ⟨fun _ => ⟨octets, rfl⟩, nofun⟩

/-- Leading zeros, a character outside ASCII before another that is refused, too few
octets, and a checksum of nothing that is wrong. -/
theorem checked_bijective_ones :
    encodeChecked (List.replicate 21 0) = "1111111111111111111114oLvT2" ∧
      decodeChecked "1111111111111111111114oLvT2" =
        .ok (List.replicate 21 0) ∧
      encode [0, 0xff] = "15Q" ∧
      decodeChecked "1é0" = .error (.invalidCharacter 'é') ∧
      decodeChecked "1" = .error (.invalidLength 1) ∧
      decodeChecked "1111" = .error .checksumMismatch := by
  obtain ⟨back, again, refused⟩ := checked_bijective
  have address :
      encodeChecked (List.replicate 21 0) = "1111111111111111111114oLvT2" := by
    decide +kernel
  have one : decode "1" = .ok [0] :=
    (by decide : encode [0] = "1") ▸ (back [0]).2.1
  have four : decode "1111" = .ok [0, 0, 0, 0] :=
    (by decide : encode [0, 0, 0, 0] = "1111") ▸ (back [0, 0, 0, 0]).2.1
  have outside : decode "1é0" = .error (.invalidCharacter 'é') :=
    ((refused "1é0").2 _).1.mpr
      ⟨['1'], 'é', ['0'], rfl, List.forall_mem_singleton.mpr (by decide),
        by decide, rfl⟩
  refine ⟨address, address ▸ (back (List.replicate 21 0)).2.2, ?_, ?_, ?_, ?_⟩
  · exact (again "15Q" [0, 0xff]).1 (by decide)
  · exact ((refused "1é0").2 _).2.mpr (Or.inl outside)
  · exact
      ((refused "1").2 _).2.mpr (Or.inr ⟨[0], one, Or.inl ⟨by decide, rfl⟩⟩)
  · exact
      ((refused "1111").2 _).2.mpr
        (Or.inr ⟨_, four, Or.inr ⟨by decide, by decide +kernel, rfl⟩⟩)

end Base58

end WalletKeys
