import WalletKeys.Codec.Segwit
import WalletKeys.Proofs.Codec.Base32
import WalletKeys.Proofs.Codec.Checksum

/-!
# Segwit addresses are read back

The last separator is the one that is written, since no character of a symbol is
a separator, and neither the filling nor the checksum leaves a choice. So a text
in one case is read exactly if its lower case is what is written for the program
and not too long (`Segwit.decode_eq_ok_iff`).
-/

namespace WalletKeys.Segwit

/-- The address that is written for a program under a tag in lower case. -/
def written (tag : String) (program : Octets) : String :=
  String.ofList
    (tag.toList ++ '1' ::
      Base32.characters
        (ChecksumCode.segwit.checked (expandTag tag) (0 :: regroupOctets 5 program)))

variable {tag address : String} {version : UInt8} {program : Octets}

theorem checkProgram_eq_ok_iff :
    checkProgram version program = .ok () ↔
      version = 0 ∧ (program.length = 20 ∨ program.length = 32) := by
  rw [checkProgram, require_bind_eq_ok_iff, require_eq_ok_iff]

theorem encode_eq_ok_iff :
    encode tag version program = .ok address ↔
      version = 0 ∧ (program.length = 20 ∨ program.length = 32) ∧
        Text.HasOneCase tag ∧ address = written (Text.lowercase tag) program := by
  constructor
  · intro made
    obtain ⟨_, checked, made⟩ := bind_eq_ok_iff.mp made
    obtain ⟨rfl, length⟩ := checkProgram_eq_ok_iff.mp checked
    obtain ⟨small, lowered, made⟩ := bind_eq_ok_iff.mp made
    obtain ⟨oneCase, rfl⟩ := Base32.normalizeCase_eq_ok_iff.mp lowered
    rw [regroup_octets, ok_bind] at made
    exact ⟨rfl, length, oneCase, (Except.ok.inj made).symm⟩
  · rintro ⟨rfl, length, oneCase, rfl⟩
    rw [encode, checkProgram_eq_ok_iff.mpr ⟨rfl, length⟩, ok_bind,
      Base32.normalizeCase_eq_ok_iff.mpr ⟨oneCase, rfl⟩, ok_bind, regroup_octets,
      ok_bind]
    rfl

theorem length_checked_program (tag : String) (program : Octets) :
    (ChecksumCode.segwit.checked (expandTag tag)
        (0 :: regroupOctets 5 program)).length =
      7 + (8 * program.length + 4) / 5 := by
  rw [ChecksumCode.length_checked, List.length_cons,
    length_regroupOctets (by decide) (by decide)]
  change (8 * program.length + 4) / 5 + 1 + 6 = _
  omega

theorem length_toList_written (tag : String) (program : Octets) :
    (written tag program).toList.length =
      tag.toList.length + (8 + (8 * program.length + 4) / 5) := by
  rw [written, String.toList_ofList, List.length_append, List.length_cons,
    Base32.characters, List.length_map, length_checked_program]
  omega

theorem length_ofText_written (tag : String) (program : Octets) :
    (Octets.ofText (written tag program)).length =
      (Octets.ofText tag).length + (8 + (8 * program.length + 4) / 5) := by
  have separated (symbols : List UInt8) :
      String.ofList (tag.toList ++ '1' :: Base32.characters symbols) =
        String.ofList (tag.toList ++ (['1'] ++ Base32.characters symbols)) :=
    rfl
  have separator : (Octets.ofText (String.ofList ['1'])).length = 1 := by
    decide
  rw [written, separated, Octets.ofText_ofList_append, Octets.ofText_ofList_append,
    String.ofList_toList, List.length_append, List.length_append, separator,
    Base32.length_ofText_characters, length_checked_program]
  omega

theorem symbolsFit_checked (tag : String) (program : Octets) :
    SymbolsFit 5
      (ChecksumCode.segwit.checked (expandTag tag) (0 :: regroupOctets 5 program)) :=
  ChecksumCode.fitsWord_segwit.symbolsFit_checked _
    (symbolsFit_cons_iff.mpr
      ⟨by decide, (regroupOctets_spec (by decide) (by decide) program).1⟩)

/-- A text is written for one program under one tag. -/
theorem written_injective {otherTag : String} {otherProgram : Octets}
    (same : written tag program = written otherTag otherProgram) :
    tag = otherTag ∧ program = otherProgram := by
  obtain ⟨tags, symbols⟩ :=
    Base32.eq_of_tagged_eq (by decide) (symbolsFit_checked tag program)
      (symbolsFit_checked otherTag otherProgram) (String.ofList_injective same)
  have data := ChecksumCode.eq_of_checked_eq symbols
  rw [List.cons.injEq] at data
  exact
    ⟨String.toList_injective tags,
      regroupOctets_injective (by decide) (by decide) data.2⟩

/-- The symbols of a program are read as the program. -/
theorem readData_regroupOctets
    (length : program.length = 20 ∨ program.length = 32) :
    readData (0 :: regroupOctets 5 program) = .ok (0, program) := by
  have regrouped : regroup 5 8 false (regroupOctets 5 program) = .ok program :=
    regroup_regroupOctets (by decide) (by decide) program
  rw [readData, regrouped, ok_bind, checkProgram_eq_ok_iff.mpr ⟨rfl, length⟩]
  rfl

theorem eq_regroupOctets_of_readData {symbols : List UInt8}
    (read : readData symbols = .ok (version, program)) :
    version = 0 ∧ (program.length = 20 ∨ program.length = 32) ∧
      symbols = 0 :: regroupOctets 5 program := by
  cases symbols with
  | nil =>
      cases read
  | cons first rest =>
      obtain ⟨octets, regrouped, read⟩ := bind_eq_ok_iff.mp read
      obtain ⟨_, checked, read⟩ := bind_eq_ok_iff.mp read
      cases read
      obtain ⟨rfl, length⟩ := checkProgram_eq_ok_iff.mp checked
      rw [eq_regroupOctets_of_regroup (by decide) (by decide) regrouped]
      exact ⟨rfl, length, rfl⟩

theorem decode_of_lowercase_eq_written (oneCase : Text.HasOneCase address)
    (programLength : program.length = 20 ∨ program.length = 32)
    (small : Text.lowercase address = written (Text.lowercase tag) program) :
    decode tag address =
      if (Octets.ofText (Text.lowercase address)).length ≤ longest then
        .ok (0, program)
      else
        .error
          (.invalidLength (Octets.ofText (Text.lowercase address)).length) := by
  have noSeparator (symbols : List UInt8) :
      '1' ∉ Base32.characters symbols := by
    have absent : '1' ∉ Base32.alphabet := by
      decide
    exact fun member => absent (Base32.mem_of_mem_characters member)
  let lead := expandTag (Text.lowercase tag)
  let symbols := ChecksumCode.segwit.checked lead (0 :: regroupOctets 5 program)
  have found : Base32.symbols (Base32.characters symbols) = .ok symbols :=
    Base32.symbols_eq_ok_iff.mpr ⟨symbolsFit_checked _ program, rfl⟩
  have verified : ChecksumCode.segwit.verify lead symbols = true :=
    ChecksumCode.fitsWord_segwit.verify_checked lead _
  have split :
      Text.splitLast? '1' (Text.lowercase address).toList =
        some ((Text.lowercase tag).toList, Base32.characters symbols) := by
    rw [small, written, String.toList_ofList]
    exact Text.splitLast?_append _ (noSeparator _)
  have payload :
      symbols.take (symbols.length - ChecksumCode.segwit.width) =
        0 :: regroupOctets 5 program :=
    ChecksumCode.take_checked _ lead _
  have long : ChecksumCode.segwit.width < symbols.length := by
    rw [ChecksumCode.length_checked]
    exact Nat.lt_add_of_pos_left (Nat.succ_pos _)
  rw [decode, Base32.normalizeCase_eq_ok_iff.mpr ⟨oneCase, rfl⟩, ok_bind, split,
    demand_some, ok_bind, require_bind, if_pos String.ofList_toList]
  dsimp only
  rw [Base32.length_ofText_characters, require_bind, found, ok_bind,
    String.ofList_toList, require_bind, if_pos verified, payload,
    readData_regroupOctets programLength]
  by_cases short : (Octets.ofText (Text.lowercase address)).length ≤ longest
  · rw [if_pos ⟨long, short⟩, if_pos short]
  · rw [if_neg fun both => short both.2, if_neg short]

theorem lowercase_eq_written_of_decode
    (read : decode tag address = .ok (version, program)) :
    version = 0 ∧ (program.length = 20 ∨ program.length = 32) ∧
      Text.HasOneCase address ∧
        Text.lowercase address = written (Text.lowercase tag) program := by
  obtain ⟨small, lowered, read⟩ := bind_eq_ok_iff.mp read
  obtain ⟨oneCase, rfl⟩ := Base32.normalizeCase_eq_ok_iff.mp lowered
  obtain ⟨parts, split, read⟩ := demand_bind_eq_ok_iff.mp read
  obtain ⟨sameTag, read⟩ := require_bind_eq_ok_iff.mp read
  obtain ⟨-, read⟩ := require_bind_eq_ok_iff.mp read
  obtain ⟨symbols, found, read⟩ := bind_eq_ok_iff.mp read
  obtain ⟨verified, read⟩ := require_bind_eq_ok_iff.mp read
  obtain ⟨fit, characters⟩ := Base32.symbols_eq_ok_iff.mp found
  obtain ⟨rfl, length, data⟩ := eq_regroupOctets_of_readData read
  have enough : ChecksumCode.segwit.width ≤ symbols.length := by
    have lengths := congrArg List.length data
    rw [List.length_take, List.length_cons] at lengths
    omega
  have checked :=
    ChecksumCode.fitsWord_segwit.eq_checked_of_verify fit enough verified
  rw [data] at checked
  have whole := Text.eq_append_of_splitLast? split
  have front : parts.1 = (Text.lowercase tag).toList := by
    rw [← sameTag, String.toList_ofList]
  rw [characters, checked, sameTag, front] at whole
  refine ⟨rfl, length, oneCase, ?_⟩
  rw [written, ← whole, String.ofList_toList]

/-- A text is read exactly if it is in one case, its lower case is what is
written for the program, and it is not too long. -/
theorem decode_eq_ok_iff :
    decode tag address = .ok (version, program) ↔
      version = 0 ∧ (program.length = 20 ∨ program.length = 32) ∧
        Text.HasOneCase address ∧
          (Octets.ofText (Text.lowercase address)).length ≤ longest ∧
            Text.lowercase address = written (Text.lowercase tag) program := by
  constructor
  · intro read
    obtain ⟨rfl, length, oneCase, small⟩ := lowercase_eq_written_of_decode read
    rw [decode_of_lowercase_eq_written oneCase length small] at read
    split at read
    · next short =>
        exact ⟨rfl, length, oneCase, short, small⟩
    · cases read
  · rintro ⟨rfl, length, oneCase, short, small⟩
    rw [decode_of_lowercase_eq_written oneCase length small, if_pos short]

/-- What is written is in lower case. -/
theorem hasUppercase_written (tag : String) (program : Octets) :
    Text.hasUppercase (written (Text.lowercase tag) program) = false :=
  Base32.hasUppercase_tagged tag (by decide) _

/-- An address that is written is read back, also in capitals, unless it is longer
than an address may be, which alone is then the fault. What is read is in one case,
and its lower case is what is written for the version and the program that were
read, under the tag in lower case. -/
theorem addresses_canonical :
    (∀ (tag : String) (program : Octets) (address : String),
      encode tag 0 program = .ok address →
        let size := (Octets.ofText address).length
        (size ≤ longest →
            ∀ given ∈ [address, Text.uppercase address],
              decode tag given = .ok (0, program)) ∧
          (longest < size → decode tag address = .error (.invalidLength size))) ∧
      ∀ (tag address : String) (version : UInt8) (program : Octets),
        decode tag address = .ok (version, program) →
          version = 0 ∧ (program.length = 20 ∨ program.length = 32) ∧
            Text.HasOneCase address ∧
              encode (Text.lowercase tag) 0 program =
                .ok (Text.lowercase address) := by
  constructor
  · intro tag program address made size
    obtain ⟨-, length, oneCase, rfl⟩ := encode_eq_ok_iff.mp made
    have read {given : String}
        (member : given ∈ [written (Text.lowercase tag) program,
          Text.uppercase (written (Text.lowercase tag) program)]) :
        decode tag given =
          if size ≤ longest then .ok (0, program) else .error (.invalidLength size) := by
      obtain ⟨givenCase, small⟩ :=
        Text.lowercase_of_mem_cases (hasUppercase_written tag program) member
      rw [decode_of_lowercase_eq_written givenCase length small, small]
    constructor
    · intro short given member
      rw [read member, if_pos short]
    · intro long
      rw [read (List.mem_cons_self ..), if_neg (not_le.mpr long)]
  · intro tag address version program read
    obtain ⟨rfl, length, oneCase, small⟩ := lowercase_eq_written_of_decode read
    refine ⟨rfl, length, oneCase, encode_eq_ok_iff.mpr ⟨rfl, length, ?_, ?_⟩⟩
    · exact Text.hasOneCase_lowercase tag
    · rw [Text.lowercase_lowercase, small]

/-- A tag that holds a separator and letters outside ASCII, in capitals; and a tag
with which the address is one octet too long. -/
theorem addresses_canonical_frontier :
    let program := List.replicate 20 0xff
    let tag := "É1É"
    let longTag := String.ofList (List.replicate 51 'A')
    (∃ address, encode tag 0 program = .ok address ∧
      decode tag (Text.uppercase address) = .ok (0, program) ∧
        encode (Text.lowercase tag) 0 program =
          .ok (Text.lowercase (Text.uppercase address))) ∧
      ∃ address, encode longTag 0 program = .ok address ∧
        (Octets.ofText address).length = 91 ∧
          decode longTag address = .error (.invalidLength 91) := by
  intro program tag longTag
  have length : program.length = 20 ∨ program.length = 32 :=
    Or.inl rfl
  have made : encode tag 0 program = .ok (written (Text.lowercase tag) program) :=
    encode_eq_ok_iff.mpr ⟨rfl, length, by decide, rfl⟩
  have madeLong : encode longTag 0 program = .ok (written (Text.lowercase longTag) program) :=
    encode_eq_ok_iff.mpr ⟨rfl, length, by decide, rfl⟩
  have size : (Octets.ofText (written (Text.lowercase tag) program)).length = 45 := by
    rw [length_ofText_written]
    decide
  have sizeLong :
      (Octets.ofText (written (Text.lowercase longTag) program)).length = 91 := by
    rw [length_ofText_written]
    decide
  obtain ⟨writes, reads⟩ := addresses_canonical
  have back :
      decode tag (Text.uppercase (written (Text.lowercase tag) program)) =
        .ok (0, program) :=
    (writes tag program _ made).1 (by rw [size]; decide) _
      (List.mem_cons_of_mem _ (List.mem_cons_self ..))
  have refused := (writes longTag program _ madeLong).2 (by rw [sizeLong]; decide)
  rw [sizeLong] at refused
  exact
    ⟨⟨_, made, back, (reads tag _ 0 program back).2.2.2⟩, _, madeLong, sizeLong,
      refused⟩

end WalletKeys.Segwit
