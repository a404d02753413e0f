import WalletKeys.Codec.CashAddr
import WalletKeys.Proofs.Codec.Base32
import WalletKeys.Proofs.Codec.Checksum

/-!
# CashAddr addresses are read back

An address is its tag, a colon and a body, and the body alone is an address too.
Neither the filling nor the checksum of a body leaves a choice, so a text in one
case is read exactly if its lower case is the address or the body that is written,
and the version octet has the size code of the hash (`CashAddr.decode_eq_ok_iff`).
-/

namespace WalletKeys.CashAddr

/-- What is written behind the colon of an address. -/
def writtenBody (tag : String) (version : UInt8) (hash : Octets) : List Char :=
  Base32.characters
    (ChecksumCode.cashAddr.checked (expandTag tag) (regroupOctets 5 (version :: hash)))

/-- The address that is written for a hash under a tag in lower case. -/
def written (tag : String) (version : UInt8) (hash : Octets) : String :=
  String.ofList (tag.toList ++ ':' :: writtenBody tag version hash)

variable {tag address : String} {version : UInt8} {hash : Octets}

theorem encode_eq_ok_iff :
    encode tag version hash = .ok address ↔
      Text.HasOneCase tag ∧
        address = written (Text.lowercase tag) version hash := by
  constructor
  · intro made
    obtain ⟨small, lowered, made⟩ := bind_eq_ok_iff.mp made
    obtain ⟨oneCase, rfl⟩ := Base32.normalizeCase_eq_ok_iff.mp lowered
    rw [regroup_octets, ok_bind] at made
    exact ⟨oneCase, (Except.ok.inj made).symm⟩
  · rintro ⟨oneCase, rfl⟩
    rw [encode, Base32.normalizeCase_eq_ok_iff.mpr ⟨oneCase, rfl⟩, ok_bind,
      regroup_octets, ok_bind]
    rfl

theorem symbolsFit_checked (tag : String) (octets : Octets) :
    SymbolsFit 5
      (ChecksumCode.cashAddr.checked (expandTag tag) (regroupOctets 5 octets)) :=
  ChecksumCode.fitsWord_cashAddr.symbolsFit_checked _
    (regroupOctets_spec (by decide) (by decide) octets).1

/-- A text is written for one version octet and hash under one tag. -/
theorem written_injective {otherTag : String} {otherVersion : UInt8}
    {otherHash : Octets}
    (same : written tag version hash = written otherTag otherVersion otherHash) :
    tag = otherTag ∧ version = otherVersion ∧ hash = otherHash := by
  obtain ⟨tags, symbols⟩ :=
    Base32.eq_of_tagged_eq (by decide) (symbolsFit_checked tag (version :: hash))
      (symbolsFit_checked otherTag (otherVersion :: otherHash))
      (String.ofList_injective same)
  have octets :=
    regroupOctets_injective (by decide) (by decide)
      (ChecksumCode.eq_of_checked_eq symbols)
  rw [List.cons.injEq] at octets
  exact ⟨String.toList_injective tags, octets⟩

theorem colon_not_mem_writtenBody (tag : String) (version : UInt8) (hash : Octets) :
    ':' ∉ writtenBody tag version hash := by
  have absent : ':' ∉ Base32.alphabet := by
    decide
  exact fun member => absent (Base32.mem_of_mem_characters member)

/-- The body of an address is all of it, unless there is a colon; then what is
before the first one has to be the tag. -/
theorem body_eq_ok_iff {found : List Char} :
    body tag address = .ok found ↔
      ':' ∉ address.toList ∧ address.toList = found ∨
        ':' ∉ tag.toList ∧ address.toList = tag.toList ++ ':' :: found := by
  rw [body]
  by_cases colon : ':' ∈ address.toList
  · obtain ⟨front, back, whole, absent⟩ := List.eq_append_cons_of_mem colon
    have split := Text.splitFirst?_append absent back
    rw [whole] at colon ⊢
    rw [split]
    dsimp only
    constructor
    · intro read
      split at read
      · next same =>
          cases read
          rw [← same, String.toList_ofList]
          exact Or.inr ⟨absent, rfl⟩
      · cases read
    · rintro (⟨noColon, -⟩ | ⟨tagAbsent, same⟩)
      · exact absurd colon noColon
      · rw [same, Text.splitFirst?_append tagAbsent] at split
        cases split
        exact if_pos String.ofList_toList
  · rw [Text.splitFirst?_eq_none colon]
    dsimp only
    constructor
    · intro read
      cases read
      exact Or.inl ⟨colon, rfl⟩
    · rintro (⟨-, rfl⟩ | ⟨-, same⟩)
      · rfl
      · rw [same] at colon
        exact absurd (List.mem_append_right _ (List.mem_cons_self ..)) colon

/-- An address under a tag that has a colon itself is refused: what stands before
the first colon is shorter than the tag. -/
theorem body_written_of_colon {front back : List Char} (absent : ':' ∉ front)
    (colon : tag.toList = front ++ ':' :: back) (version : UInt8) (hash : Octets) :
    body tag (written tag version hash) =
      .error (.unexpectedTag (String.ofList front)) := by
  have different : String.ofList front ≠ tag := by
    intro same
    rw [← same, String.toList_ofList] at colon
    have lengths := congrArg List.length colon
    rw [List.length_append, List.length_cons] at lengths
    omega
  have split :
      Text.splitFirst? ':' (written tag version hash).toList =
        some (front, back ++ ':' :: writtenBody tag version hash) := by
    rw [written, String.toList_ofList, colon, List.append_assoc]
    exact Text.splitFirst?_append absent _
  rw [body, split]
  exact if_neg different

theorem readData_cons (version : UInt8) (hash : Octets) :
    readData (version :: hash) =
      if sizeCode hash.length = .ok (version &&& 0x07) then .ok (version, hash)
      else .error (.invalidLength hash.length) := by
  rw [readData, sizeCode]
  cases (hashLengths.idxOf? hash.length).map UInt8.ofNat with
  | none =>
      rfl
  | some code =>
      rw [demand_some, ok_bind, require_bind]
      by_cases same : code = version &&& 0x07
      · rw [if_pos same, if_pos (congrArg Except.ok same)]
        rfl
      · rw [if_neg same, if_neg (mt Except.ok.inj same)]

theorem decode_of_body (oneCase : Text.HasOneCase address)
    (found :
      body (Text.lowercase tag) (Text.lowercase address) =
        .ok (writtenBody (Text.lowercase tag) version hash)) :
    decode tag address = readData (version :: hash) := by
  let lead := expandTag (Text.lowercase tag)
  let symbols := ChecksumCode.cashAddr.checked lead (regroupOctets 5 (version :: hash))
  have symbolsFound : Base32.symbols (Base32.characters symbols) = .ok symbols :=
    Base32.symbols_eq_ok_iff.mpr ⟨symbolsFit_checked _ (version :: hash), rfl⟩
  have verified : ChecksumCode.cashAddr.verify lead symbols = true :=
    ChecksumCode.fitsWord_cashAddr.verify_checked lead _
  have payload :
      symbols.take (symbols.length - ChecksumCode.cashAddr.width) =
        regroupOctets 5 (version :: hash) :=
    ChecksumCode.take_checked _ lead _
  have long : ChecksumCode.cashAddr.width < symbols.length := by
    rw [ChecksumCode.length_checked, length_regroupOctets (by decide) (by decide),
      List.length_cons]
    omega
  have regrouped :
      regroup 5 8 false (regroupOctets 5 (version :: hash)) = .ok (version :: hash) :=
    regroup_regroupOctets (by decide) (by decide) _
  rw [decode, Base32.normalizeCase_eq_ok_iff.mpr ⟨oneCase, rfl⟩, ok_bind]
  dsimp only
  rw [found, ok_bind, writtenBody, Base32.length_ofText_characters, require_bind,
    if_pos long, symbolsFound, ok_bind, require_bind, if_pos verified, payload,
    regrouped, ok_bind]

theorem body_of_decode (read : decode tag address = .ok (version, hash)) :
    sizeCode hash.length = .ok (version &&& 0x07) ∧ Text.HasOneCase address ∧
      body (Text.lowercase tag) (Text.lowercase address) =
        .ok (writtenBody (Text.lowercase tag) version hash) := by
  obtain ⟨small, lowered, read⟩ := bind_eq_ok_iff.mp read
  obtain ⟨oneCase, rfl⟩ := Base32.normalizeCase_eq_ok_iff.mp lowered
  obtain ⟨characters, found, read⟩ := bind_eq_ok_iff.mp read
  obtain ⟨-, read⟩ := require_bind_eq_ok_iff.mp read
  obtain ⟨symbols, symbolsFound, read⟩ := bind_eq_ok_iff.mp read
  obtain ⟨verified, read⟩ := require_bind_eq_ok_iff.mp read
  obtain ⟨octets, regrouped, read⟩ := bind_eq_ok_iff.mp read
  obtain ⟨fit, rfl⟩ := Base32.symbols_eq_ok_iff.mp symbolsFound
  have payload := eq_regroupOctets_of_regroup (by decide) (by decide) regrouped
  cases octets with
  | nil =>
      cases read
  | cons first rest =>
      rw [readData_cons] at read
      split at read
      · next code =>
          cases read
          have enough : ChecksumCode.cashAddr.width ≤ symbols.length := by
            have lengths := congrArg List.length payload
            rw [List.length_take, length_regroupOctets (by decide) (by decide),
              List.length_cons] at lengths
            omega
          have checked :=
            ChecksumCode.fitsWord_cashAddr.eq_checked_of_verify fit enough verified
          rw [payload] at checked
          rw [writtenBody, ← checked]
          exact ⟨code, oneCase, found⟩
      · cases read

theorem colon_mem_lowercase_iff (text : String) :
    ':' ∈ (Text.lowercase text).toList ↔ ':' ∈ text.toList :=
  Text.mem_lowercase_iff (by decide) text

/-- A text is read exactly if the version octet has the size code of the hash, the
text is in one case and its lower case is what is written, with the tag, if that has
no colon, or without it. -/
theorem decode_eq_ok_iff :
    decode tag address = .ok (version, hash) ↔
      sizeCode hash.length = .ok (version &&& 0x07) ∧ Text.HasOneCase address ∧
        ((Text.lowercase address).toList =
            writtenBody (Text.lowercase tag) version hash ∨
          ':' ∉ tag.toList ∧
            Text.lowercase address = written (Text.lowercase tag) version hash) := by
  constructor
  · intro read
    obtain ⟨code, oneCase, found⟩ := body_of_decode read
    refine ⟨code, oneCase, ?_⟩
    rcases body_eq_ok_iff.mp found with ⟨-, same⟩ | ⟨absent, whole⟩
    · exact Or.inl same
    · rw [colon_mem_lowercase_iff] at absent
      refine Or.inr ⟨absent, ?_⟩
      rw [written, ← whole, String.ofList_toList]
  · rintro ⟨code, oneCase, same⟩
    rw [decode_of_body oneCase, readData_cons, if_pos code]
    rw [body_eq_ok_iff]
    rcases same with bare | ⟨absent, whole⟩
    · refine Or.inl ⟨?_, bare⟩
      rw [bare]
      exact colon_not_mem_writtenBody _ _ _
    · rw [← colon_mem_lowercase_iff] at absent
      refine Or.inr ⟨absent, ?_⟩
      rw [whole, written, String.toList_ofList]

theorem written_eq (tag : String) (version : UInt8) (hash : Octets) :
    written tag version hash =
      tag ++ ":" ++ String.ofList (writtenBody tag version hash) := by
  have colon : ":" = String.ofList [':'] :=
    rfl
  rw [written, colon, ← List.singleton_append, String.ofList_append,
    String.ofList_append, String.ofList_toList, String.append_assoc]

theorem hasUppercase_written (tag : String) (version : UInt8) (hash : Octets) :
    Text.hasUppercase (written (Text.lowercase tag) version hash) = false :=
  Base32.hasUppercase_tagged tag (by decide) _

/-- The address and its body are two texts with the same body, both in lower
case. -/
theorem body_of_mem_written (absent : ':' ∉ tag.toList) {text : String}
    (member :
      text ∈ [written (Text.lowercase tag) version hash,
        String.ofList (writtenBody (Text.lowercase tag) version hash)]) :
    Text.hasUppercase text = false ∧
      body (Text.lowercase tag) text =
        .ok (writtenBody (Text.lowercase tag) version hash) := by
  rw [← colon_mem_lowercase_iff] at absent
  rw [body_eq_ok_iff]
  simp only [List.mem_cons, List.not_mem_nil, or_false] at member
  rcases member with rfl | rfl
  · refine ⟨hasUppercase_written tag version hash, Or.inr ⟨absent, ?_⟩⟩
    rw [written, String.toList_ofList]
  · refine ⟨Base32.hasUppercase_characters _, Or.inl ?_⟩
    rw [String.toList_ofList]
    exact ⟨colon_not_mem_writtenBody _ _ _, rfl⟩

/-- An address under a tag that has a colon itself is refused. -/
theorem decode_written_of_colon {front back : List Char} (absent : ':' ∉ front)
    (parts : (Text.lowercase tag).toList = front ++ ':' :: back) :
    decode tag (written (Text.lowercase tag) version hash) =
      .error (.unexpectedTag (String.ofList front)) := by
  have capitals := hasUppercase_written tag version hash
  rw [decode, Base32.normalizeCase_eq_ok_iff.mpr ⟨Or.inr capitals, rfl⟩, ok_bind]
  dsimp only
  rw [Text.lowercase_of_not_hasUppercase capitals,
    body_written_of_colon absent parts]
  rfl

/-- Whatever the hash is, the address under a tag in one case is written. If the
tag has no colon, the address and its body are read back, also in capitals, or the
length of the hash is the fault, if the version octet does not have its size code.
If it has one, what is before the first colon is taken for the tag and refused.
What is read is in one case, and its lower case is what is written for the version
octet and the hash that were read, or the body of that. -/
theorem bodies_canonical :
    (∀ (tag : String) (version : UInt8) (hash : Octets), Text.HasOneCase tag →
      ∃ body,
        encode tag version hash = .ok (Text.lowercase tag ++ ":" ++ body) ∧
          ':' ∉ body.toList ∧
            (':' ∉ tag.toList →
              ∀ text ∈ [Text.lowercase tag ++ ":" ++ body, body],
                ∀ given ∈ [text, Text.uppercase text],
                  decode tag given =
                    if sizeCode hash.length = .ok (version &&& 0x07) then
                      .ok (version, hash)
                    else .error (.invalidLength hash.length)) ∧
            (':' ∈ tag.toList →
              ∃ front back,
                (Text.lowercase tag).toList = front ++ ':' :: back ∧ ':' ∉ front ∧
                  decode tag (Text.lowercase tag ++ ":" ++ body) =
                    .error (.unexpectedTag (String.ofList front)))) ∧
      ∀ (tag address : String) (version : UInt8) (hash : Octets),
        decode tag address = .ok (version, hash) →
          sizeCode hash.length = .ok (version &&& 0x07) ∧ Text.HasOneCase address ∧
            ∃ body,
              encode (Text.lowercase tag) version hash =
                  .ok (Text.lowercase tag ++ ":" ++ body) ∧
                ':' ∉ body.toList ∧
                  (Text.lowercase address = body ∨
                    ':' ∉ tag.toList ∧
                      Text.lowercase address = Text.lowercase tag ++ ":" ++ body) := by
  constructor
  · intro tag version hash oneCase
    let small := Text.lowercase tag
    let body := String.ofList (writtenBody small version hash)
    have whole : written small version hash = small ++ ":" ++ body :=
      written_eq small version hash
    have made : encode tag version hash = .ok (written small version hash) :=
      encode_eq_ok_iff.mpr ⟨oneCase, rfl⟩
    have noColon : ':' ∉ body.toList := by
      rw [String.toList_ofList]
      exact colon_not_mem_writtenBody _ _ _
    rw [whole] at made
    refine ⟨body, made, noColon, ?_, ?_⟩
    · intro absent text member given givenMember
      rw [← whole] at member
      obtain ⟨capitals, found⟩ := body_of_mem_written absent member
      obtain ⟨givenCase, same⟩ := Text.lowercase_of_mem_cases capitals givenMember
      rw [← same] at found
      rw [decode_of_body givenCase found, readData_cons]
    · intro colon
      obtain ⟨front, back, parts, absent⟩ :=
        List.eq_append_cons_of_mem ((colon_mem_lowercase_iff tag).mpr colon)
      refine ⟨front, back, parts, absent, ?_⟩
      rw [← whole]
      exact decode_written_of_colon absent parts
  · intro tag address version hash read
    obtain ⟨code, oneCase, same⟩ := decode_eq_ok_iff.mp read
    have made :
        encode (Text.lowercase tag) version hash =
          .ok (written (Text.lowercase tag) version hash) :=
      encode_eq_ok_iff.mpr
        ⟨Text.hasOneCase_lowercase tag, by rw [Text.lowercase_lowercase]⟩
    rw [written_eq] at made same
    refine ⟨code, oneCase, _, made, ?_, ?_⟩
    · rw [String.toList_ofList]
      exact colon_not_mem_writtenBody _ _ _
    · rcases same with bare | tagged
      · exact Or.inl (by rw [← bare, String.ofList_toList])
      · exact Or.inr tagged

/-- A body in capitals under a tag in capitals, a version octet with another size
code, and a tag with a colon. -/
theorem bodies_canonical_capitals :
    let tag := "BITCOINCASH"
    let hash := List.replicate 20 0xff
    (∃ body, encode tag 0x08 hash = .ok ("bitcoincash:" ++ body) ∧
      decode tag (Text.uppercase body) = .ok (0x08, hash) ∧
        Text.HasOneCase (Text.uppercase body)) ∧
      (∃ body, encode tag 0x09 hash = .ok ("bitcoincash:" ++ body) ∧
        decode tag body = .error (.invalidLength 20)) ∧
      ∃ body, encode "a:b" 0x08 hash = .ok ("a:b:" ++ body) ∧
        decode "a:b" ("a:b:" ++ body) = .error (.unexpectedTag "a") := by
  intro tag hash
  obtain ⟨writes, reads⟩ := bodies_canonical
  have small : Text.lowercase tag ++ ":" = "bitcoincash:" := by
    decide
  have smallColon : Text.lowercase "a:b" ++ ":" = "a:b:" := by
    decide
  have noColon : ':' ∉ tag.toList := by
    decide
  obtain ⟨body, made, -, accepted, -⟩ := writes tag 0x08 hash (by decide)
  obtain ⟨other, otherMade, -, refused, -⟩ := writes tag 0x09 hash (by decide)
  obtain ⟨third, thirdMade, -, -, colon⟩ := writes "a:b" 0x08 hash (by decide)
  obtain ⟨front, rest, parts, absent, noTag⟩ := colon (by decide)
  rw [small] at made otherMade accepted refused
  rw [smallColon] at thirdMade noTag
  have back :=
    accepted noColon body (by simp) (Text.uppercase body) (by simp)
  have wrongSize := refused noColon other (by simp) other (by simp)
  rw [if_pos (by decide)] at back
  rw [if_neg (by decide)] at wrongSize
  have first : String.ofList front = "a" := by
    have split := Text.splitFirst?_append absent rest
    have known :
        Text.splitFirst? ':' (Text.lowercase "a:b").toList = some (['a'], ['b']) := by
      decide
    rw [← parts, known] at split
    cases split
    rfl
  rw [first] at noTag
  exact
    ⟨⟨body, made, back, (reads tag _ 0x08 hash back).2.1⟩, ⟨other, otherMade, wrongSize⟩,
      third, thirdMade, noTag⟩

end WalletKeys.CashAddr
