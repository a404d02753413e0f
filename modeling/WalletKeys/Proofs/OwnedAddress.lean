import WalletKeys.Proofs.SignedMessage

/-!
# Which addresses a signed message verifies for

Verification compares texts, with allowances for capitals and a missing tag.
Since every codec writes a text in one way only, the texts that pass are the ones
that the codec of the coin reads as the recovered key
(`SignedMessage.ownsAddress_eq_true_iff`). The header of the signature has no say
in it but for the recovery id.
-/

namespace WalletKeys

open Secp256k1

/-- The codec of the coin reads a text as what the table makes of a point: of the
digest of either form of the key, or of a witness program. -/
inductive IsAddressOf (coin : Coin) (network : Network) (point : Point)
    (text : String) : Prop
  | keyDigest (entry : TableEntry) (compressed : Bool)
      (style : coin.style = .generic)
      (found : tableEntry coin network .p2pkh = .ok entry)
      (read :
        Base58.decodeChecked text =
          .ok (entry.scheme.version ++
            (hash160 (PublicKey.mk point compressed).octets).octets))
  | nestedWitness (entry : TableEntry) (style : coin.style = .generic)
      (found : tableEntry coin network .p2wpkhInP2sh = .ok entry)
      (read :
        Base58.decodeChecked text =
          .ok (entry.scheme.version ++
            (hash160 (0x00 :: 0x14 :: (hash160 point.compressed).octets)).octets))
  | witness (entry : TableEntry) (tag : String) (style : coin.style = .generic)
      (found : tableEntry coin network .p2wpkh = .ok entry)
      (tagged : entry.network.tag = some tag)
      (read : Segwit.decode tag text = .ok (0, (hash160 point.compressed).octets))
  | cash (entry : TableEntry) (tag : String) (compressed : Bool)
      (style : coin.style = .cashAddr)
      (found : tableEntry coin network .p2pkh = .ok entry)
      (tagged : entry.network.tag = some tag)
      (read :
        CashAddr.decode tag text =
          .ok (entry.scheme.version.headD 0,
            (hash160 (PublicKey.mk point compressed).octets).octets))
  | account (entry : TableEntry) (style : coin.style = .ethereum)
      (found : tableEntry coin network .p2pkh = .ok entry)
      (same :
        text =
          "0x" ++ Hex.encode ((keccak256 (point.uncompressed.drop 1)).octets.drop 12))

namespace SignedMessage

/-- What is folded is a text without capitals exactly if that is its lower case and
the two cases are not mixed. -/
theorem foldCase_eq_iff {candidate given : String}
    (small : Text.hasUppercase candidate = false) :
    foldCase given = candidate ↔
      Text.HasOneCase given ∧ Text.lowercase given = candidate := by
  unfold foldCase
  split
  · next lowers =>
      constructor
      · rintro rfl
        exact ⟨Or.inr small, Text.lowercase_of_not_hasUppercase small⟩
      · rintro ⟨noLowers | noCapitals, same⟩
        · rw [noLowers] at lowers
          cases lowers
        · rw [← same, Text.lowercase_of_not_hasUppercase noCapitals]
  · next noLowers =>
      rw [Bool.not_eq_true] at noLowers
      exact (and_iff_right (Or.inl noLowers)).symm

theorem isSameAddress_exact {style : AddressStyle} {scheme : Scheme}
    (exactly : isCaseFree style scheme = false) {candidate given : String} :
    isSameAddress style scheme candidate given = true ↔ given = candidate := by
  rw [isSameAddress, if_neg (Bool.eq_false_iff.mp exactly), beq_iff_eq, eq_comm]

theorem isSameAddress_witness {tag given : String} {program : Octets}
    (small : Text.lowercase tag = tag)
    (short : (Octets.ofText tag).length + 40 ≤ Segwit.longest)
    (length : program.length = 20) :
    isSameAddress .generic .p2wpkh (Segwit.written tag program) given = true ↔
      Segwit.decode tag given = .ok (0, program) := by
  have capitals : Text.hasUppercase (Segwit.written tag program) = false := by
    rw [← small]
    exact Segwit.hasUppercase_written tag program
  have fits :
      (Octets.ofText (Segwit.written tag program)).length ≤ Segwit.longest := by
    rw [Segwit.length_ofText_written, length]
    exact short
  have folded :
      isSameAddress .generic .p2wpkh (Segwit.written tag program) given =
        (foldCase given == Segwit.written tag program) :=
    Bool.or_false _
  rw [folded, beq_iff_eq, foldCase_eq_iff capitals, Segwit.decode_eq_ok_iff, small]
  constructor
  · rintro ⟨oneCase, same⟩
    exact ⟨rfl, Or.inl length, oneCase, same ▸ fits, same⟩
  · rintro ⟨-, -, oneCase, -, same⟩
    exact ⟨oneCase, same⟩

theorem isSameAddress_cash {scheme : Scheme} {tag given : String} {version : UInt8}
    {hash : Octets} (small : Text.lowercase tag = tag) (absent : ':' ∉ tag.toList)
    (code : CashAddr.sizeCode hash.length = .ok (version &&& 0x07)) :
    isSameAddress .cashAddr scheme (CashAddr.written tag version hash) given = true ↔
      CashAddr.decode tag given = .ok (version, hash) := by
  let body := CashAddr.writtenBody tag version hash
  have capitals : Text.hasUppercase (CashAddr.written tag version hash) = false := by
    rw [← small]
    exact CashAddr.hasUppercase_written tag version hash
  have bodyCapitals : Text.hasUppercase (String.ofList body) = false :=
    Base32.hasUppercase_characters _
  -- The comparison cuts where the reader does, since the tag has no colon itself.
  have split :
      Text.splitFirst? ':' (CashAddr.written tag version hash).toList =
        some (tag.toList, body) := by
    rw [CashAddr.written, String.toList_ofList]
    exact Text.splitFirst?_append absent body
  have caseFree : isCaseFree .cashAddr scheme = true :=
    rfl
  have folded :
      isSameAddress .cashAddr scheme (CashAddr.written tag version hash) given =
        (foldCase given == CashAddr.written tag version hash ||
          String.ofList body == foldCase given) := by
    rw [isSameAddress, if_pos caseFree, split]
    rfl
  have bare :
      (Text.lowercase given).toList = body ↔
        Text.lowercase given = String.ofList body := by
    rw [← String.toList_inj, String.toList_ofList]
  rw [folded, Bool.or_eq_true, beq_iff_eq, beq_iff_eq,
    eq_comm (a := String.ofList body), foldCase_eq_iff capitals,
    foldCase_eq_iff bodyCapitals, CashAddr.decode_eq_ok_iff, small, bare,
    ← and_or_left, or_comm, and_iff_right code, and_iff_right absent]

/-- The text is the address of the key under a scheme, up to what the comparison
allows. -/
def IsSameAsOwn (coin : Coin) (network : Network) (scheme : Scheme)
    (key : PublicKey) (given : String) : Prop :=
  ∃ address,
    addressOfKey coin network scheme key = .ok address ∧
      isSameAddress coin.style scheme address given = true

variable {coin : Coin} {network : Network} {scheme : Scheme} {key : PublicKey}
  {entry : TableEntry} {tag given : String}

theorem isSameAsOwn_iff {address : String}
    (own : addressOfKey coin network scheme key = .ok address) :
    IsSameAsOwn coin network scheme key given ↔
      isSameAddress coin.style scheme address given = true := by
  constructor
  · rintro ⟨other, otherOwn, same⟩
    rw [own] at otherOwn
    cases otherOwn
    exact same
  · intro same
    exact ⟨address, own, same⟩

theorem ownsAddress_iff :
    ownsAddress coin network key given = true ↔
      ∃ scheme compressed,
        scheme.takesKey = true ∧
          IsSameAsOwn coin network scheme (key.withCompression compressed) given := by
  constructor
  · intro owns
    obtain ⟨⟨scheme, address⟩, tried, same⟩ := List.any_eq_true.mp owns
    obtain ⟨⟨_, form⟩, member, made⟩ := List.mem_filterMap.mp tried
    obtain ⟨_, own, both⟩ := Option.map_eq_some_iff.mp made
    cases both
    rw [toOption_eq_some_iff] at own
    simp only [List.mem_cons, Prod.mk.injEq, List.not_mem_nil, or_false] at member
    rcases member with ⟨rfl, rfl⟩ | ⟨rfl, rfl⟩ | ⟨rfl, rfl⟩ | ⟨rfl, rfl⟩
    · exact ⟨.p2pkh, false, rfl, address, own, same⟩
    · exact ⟨.p2pkh, true, rfl, address, own, same⟩
    · exact ⟨.p2wpkhInP2sh, true, rfl, address, own, same⟩
    · exact ⟨.p2wpkh, true, rfl, address, own, same⟩
  · rintro ⟨scheme, compressed, takesKey, address, own, same⟩
    obtain ⟨entry, found, -⟩ := bind_eq_ok_iff.mp own
    exact
      List.any_eq_true.mpr
        ⟨_, mem_candidates found takesKey own key.compressed, same⟩

theorem isSameAsOwn_versioned (style : coin.style = .generic)
    (exactly : scheme ≠ .p2wpkh) {digest : Octets}
    (own :
      addressOfKey coin network scheme key = .ok (entry.versioned digest)) :
    IsSameAsOwn coin network scheme key given ↔
      Base58.decodeChecked given = .ok (entry.scheme.version ++ digest) := by
  have compared : isCaseFree coin.style scheme = false := by
    rw [style]
    exact decide_eq_false exactly
  rw [isSameAsOwn_iff own, isSameAddress_exact compared,
    Base58.decodeChecked_eq_ok_iff, TableEntry.versioned]

theorem isSameAsOwn_keyDigest (style : coin.style = .generic)
    (found : tableEntry coin network .p2pkh = .ok entry) :
    IsSameAsOwn coin network .p2pkh key given ↔
      Base58.decodeChecked given =
        .ok (entry.scheme.version ++ (hash160 key.octets).octets) := by
  have schemeEq := (isFor_of_tableEntry found).scheme_eq
  refine isSameAsOwn_versioned style (by decide) ?_
  rw [addressOfKey_eq_of_style found, style]
  simp only [TableEntry.genericAddress, schemeEq]

theorem isSameAsOwn_nestedWitness (style : coin.style = .generic)
    (found : tableEntry coin network .p2wpkhInP2sh = .ok entry) :
    IsSameAsOwn coin network .p2wpkhInP2sh key given ↔
      Base58.decodeChecked given =
        .ok (entry.scheme.version ++ (hash160 key.witnessScript).octets) := by
  have schemeEq := (isFor_of_tableEntry found).scheme_eq
  refine isSameAsOwn_versioned style (by decide) ?_
  rw [addressOfKey_eq_of_style found, style]
  simp only [TableEntry.genericAddress, schemeEq]

theorem isSameAsOwn_witness (style : coin.style = .generic)
    (found : tableEntry coin network .p2wpkh = .ok entry)
    (tagged : entry.network.tag = some tag) :
    IsSameAsOwn coin network .p2wpkh key given ↔
      Segwit.decode tag given = .ok (0, (hash160 key.shortOctets).octets) := by
  have isFor := isFor_of_tableEntry found
  obtain ⟨plain, small, short, -⟩ := isFor.tag_spec tagged
  have length := (hash160 key.shortOctets).length_octets
  have own :
      addressOfKey coin network .p2wpkh key =
        .ok (Segwit.written tag (hash160 key.shortOctets).octets) := by
    rw [addressOfKey_eq_of_style found, style,
      ← TableEntry.segwit_eq_ok tagged plain (Or.inl length)]
    simp only [TableEntry.genericAddress, isFor.scheme_eq]
  rw [isSameAsOwn_iff own, style, isSameAddress_witness small (by omega) length]

theorem isSameAsOwn_cash (style : coin.style = .cashAddr)
    (found : tableEntry coin network .p2pkh = .ok entry)
    (tagged : entry.network.tag = some tag) :
    IsSameAsOwn coin network .p2pkh key given ↔
      CashAddr.decode tag given =
        .ok (entry.scheme.version.headD 0, (hash160 key.octets).octets) := by
  have isFor := isFor_of_tableEntry found
  obtain ⟨plain, small, -, absent⟩ := isFor.tag_spec tagged
  have code :=
    sizeCode_of_cashAddr coin coin.mem_all entry.network isFor.network_mem entry.scheme
      isFor.scheme_mem style
  rw [← (hash160 key.octets).length_octets] at code
  have own :
      addressOfKey coin network .p2pkh key =
        .ok (CashAddr.written tag (entry.scheme.version.headD 0)
          (hash160 key.octets).octets) := by
    rw [addressOfKey_eq_of_style found, style]
    dsimp only
    rw [TableEntry.cashAddress_eq (Or.inl isFor.scheme_eq) tagged plain,
      isFor.scheme_eq]
    rfl
  rw [isSameAsOwn_iff own, style, isSameAddress_cash small absent code]

theorem isSameAsOwn_account (style : coin.style = .ethereum)
    (found : tableEntry coin network scheme = .ok entry) :
    IsSameAsOwn coin network scheme key given ↔
      given =
        "0x" ++ Hex.encode ((keccak256 (key.longOctets.drop 1)).octets.drop 12) := by
  have own :
      addressOfKey coin network scheme key = entry.ethereumAddress (.key key) := by
    rw [addressOfKey_eq_of_style found, style]
  rw [isSameAsOwn_iff own, style, isSameAddress_exact rfl]

theorem isAddressOf_of_isSameAsOwn (takesKey : scheme.takesKey = true)
    (same : IsSameAsOwn coin network scheme key given) :
    IsAddressOf coin network key.point given := by
  have ⟨_, own, _⟩ := same
  obtain ⟨entry, found, -⟩ := bind_eq_ok_iff.mp own
  have isFor := isFor_of_tableEntry found
  cases style : coin.style with
  | generic =>
      cases scheme with
      | p2pkh =>
          exact
            .keyDigest entry key.compressed style found
              ((isSameAsOwn_keyDigest style found).mp same)
      | p2wpkhInP2sh =>
          have read := (isSameAsOwn_nestedWitness style found).mp same
          rw [key.witnessScript_eq] at read
          exact .nestedWitness entry style found read
      | p2wpkh =>
          obtain ⟨tag, tagged⟩ := isFor.exists_tag (Or.inr rfl)
          have read := (isSameAsOwn_witness style found tagged).mp same
          rw [key.shortOctets_eq] at read
          exact .witness entry tag style found tagged read
      | p2sh | p2wsh | p2wshInP2sh =>
          cases takesKey
  | ethereum =>
      obtain rfl := isFor.scheme_eq_p2pkh (by rw [style]; decide) takesKey
      exact .account entry style found ((isSameAsOwn_account style found).mp same)
  | cashAddr =>
      obtain rfl := isFor.scheme_eq_p2pkh (by rw [style]; decide) takesKey
      obtain ⟨tag, tagged⟩ := isFor.exists_tag (Or.inl style)
      exact
        .cash entry tag key.compressed style found tagged
          ((isSameAsOwn_cash style found tagged).mp same)

/-- A text passes for a key exactly if it is an address of the point of the key. -/
theorem ownsAddress_eq_true_iff :
    ownsAddress coin network key given = true ↔
      IsAddressOf coin network key.point given := by
  rw [ownsAddress_iff]
  constructor
  · rintro ⟨scheme, compressed, takesKey, same⟩
    -- The form is not part of what the text is an address of.
    have isAddress := isAddressOf_of_isSameAsOwn takesKey same
    exact isAddress
  · intro isAddress
    cases isAddress with
    | keyDigest entry compressed style found read =>
        exact
          ⟨.p2pkh, compressed, rfl, (isSameAsOwn_keyDigest style found).mpr read⟩
    | nestedWitness entry style found read =>
        refine ⟨.p2wpkhInP2sh, true, rfl, (isSameAsOwn_nestedWitness style found).mpr ?_⟩
        rw [PublicKey.witnessScript_eq]
        exact read
    | witness entry tag style found tagged read =>
        refine ⟨.p2wpkh, true, rfl, (isSameAsOwn_witness style found tagged).mpr ?_⟩
        rw [PublicKey.shortOctets_eq]
        exact read
    | cash entry tag compressed style found tagged read =>
        exact
          ⟨.p2pkh, compressed, rfl,
            (isSameAsOwn_cash style found tagged).mpr read⟩
    | account entry style found same =>
        exact ⟨.p2pkh, true, rfl, (isSameAsOwn_account style found).mpr same⟩

theorem verify_of_recover {address signature : String} {message : Octets}
    (recovered : recover signature message = .ok key) :
    verify coin network address signature message =
      require (ownsAddress coin network key (Text.trim address)) .noAddressMatch := by
  rw [verify, recovered, ok_bind]

/-- The claim of a header is not looked at. -/
theorem verify_of_decode? {signature : String} {header : UInt8} {rest : Octets}
    {claim : Claim} {id : RecoveryId}
    (written :
      Base64.decode? (withoutLabel signature) = some (header :: rest))
    (headed : Claim.ofHeader header = .ok (claim, id)) (coin : Coin)
    (network : Network) (address : String) (message : Octets) :
    verify coin network address signature message = (do
      require (rest.length + 1 = 65) (.invalidSignatureLength (rest.length + 1))
      let numbers ← Signature.ofCompact rest
      let key ← Ecdsa.recover id numbers (digest message)
      require (ownsAddress coin network key (Text.trim address)) .noAddressMatch) := by
  rw [verify, recover, written, demand_some, ok_bind, List.length_cons]
  simp only [List.headD_cons, List.drop_succ_cons, List.drop_zero, headed, ok_bind,
    bind_assoc, pure_bind]
  rfl

/-- A signature verifies for exactly those texts that are an address of the point
that is recovered, as the codec of the coin reads them; with any other text there is
no match. Two signatures that differ in the claim of the header alone verify alike. -/
theorem verify_iff_isAddressOf :
    (∀ (coin : Coin) (network : Network) (address signature : String)
      (message : Octets),
      (verify coin network address signature message = .ok () ↔
        ∃ key, recover signature message = .ok key ∧
          IsAddressOf coin network key.point (Text.trim address)) ∧
        ∀ key, recover signature message = .ok key →
          ¬IsAddressOf coin network key.point (Text.trim address) →
            verify coin network address signature message =
              .error .noAddressMatch) ∧
      ∀ (signature other : String) (header otherHeader : UInt8) (rest : Octets)
        (claim otherClaim : Claim) (id : RecoveryId),
        Base64.decode? (withoutLabel signature) = some (header :: rest) →
          Base64.decode? (withoutLabel other) = some (otherHeader :: rest) →
            Claim.ofHeader header = .ok (claim, id) →
              Claim.ofHeader otherHeader = .ok (otherClaim, id) →
                ∀ (coin : Coin) (network : Network) (address : String)
                  (message : Octets),
                  verify coin network address signature message =
                    verify coin network address other message := by
  constructor
  · intro coin network address signature message
    constructor
    · rw [verify, bind_eq_ok_iff]
      simp only [require_eq_ok_iff, ownsAddress_eq_true_iff]
    · intro key recovered foreign
      rw [← ownsAddress_eq_true_iff] at foreign
      rw [verify_of_recover recovered, require, if_neg foreign]
  · intro signature other header otherHeader rest claim otherClaim id written
      otherWritten headed otherHeaded coin network address message
    rw [verify_of_decode? written headed, verify_of_decode? otherWritten otherHeaded]

/-- A signature under the claim of a short key verifies for a witness address in
capitals and for no text that is not an address; under the claim of a long key it
verifies for the body of a CashAddr address, in capitals and between blanks. -/
theorem verify_iff_isAddressOf_capitals :
    let message := Octets.ofText "Secret message #1"
    let rest :=
      "0OFI1thq9kJXYGQ3E2lDc4dlD1o0XDM0mgaf6oKDq/" ++
        "vrAKERrV76P6kAejZzoSL9MOIgUoxqG3MQg1EpaT/0Jg="
    let cashBody := "QP4CLAJCZPACEEA0RPCS2MMWUFVKLFDR3U3MZWZCC8"
    verify .bitcoin .main "BC1QSD5GMEQN235SZZHN0C24DWU5X96WDG0DDN7C43" ("H" ++ rest)
        message =
      .ok () ∧
    verify .bitcoinCash .main (" " ++ cashBody ++ " ") ("G" ++ rest) message =
      .ok () ∧
    verify .bitcoin .main "x" ("H" ++ rest) message = .error .noAddressMatch := by
  intro message rest cashBody
  let key : PublicKey :=
    ⟨⟨37455132178055701834228974091437044737990100222523309860629560103444889131036,
      21946091971710973699616578107330670282565943696487595741860945376191400459629⟩,
      true⟩
  let numbers : Octets :=
    ((Base64.decode? (withoutLabel ("H" ++ rest))).getD []).drop 1
  have recovered : recover ("H" ++ rest) message = .ok key := by
    decide +kernel
  have witness : IsAddressOf .bitcoin .main key.point
      (Text.trim "BC1QSD5GMEQN235SZZHN0C24DWU5X96WDG0DDN7C43") :=
    .witness _ "bc" rfl rfl rfl (by decide +kernel)
  have cash : IsAddressOf .bitcoinCash .main key.point
      (Text.trim (" " ++ cashBody ++ " ")) :=
    .cash _ "bitcoincash" false rfl rfl rfl (by decide +kernel)
  have foreign : ¬IsAddressOf .bitcoin .main key.point (Text.trim "x") := by
    have trimmed : Text.trim "x" = "x" := by
      decide
    have noDigest : Base58.decodeChecked "x" = .error (.invalidLength 1) := by
      decide
    rw [trimmed]
    intro isAddress
    cases isAddress with
    | keyDigest _ _ _ _ read | nestedWitness _ _ _ read =>
        rw [noDigest] at read
        cases read
    | witness _ _ _ _ _ read =>
        cases read
    | cash _ _ _ style | account _ style =>
        cases style
  obtain ⟨verifies, alike⟩ := verify_iff_isAddressOf
  refine
    ⟨(verifies _ _ _ _ _).1.mpr ⟨key, recovered, witness⟩, ?_,
      (verifies _ _ _ _ _).2 key recovered foreign⟩
  rw [← alike ("H" ++ rest) ("G" ++ rest) 31 27 numbers .shortKey .longKey
    ⟨false, false⟩ (by decide +kernel) (by decide +kernel) (by decide) (by decide)]
  exact (verifies _ _ _ _ _).1.mpr ⟨key, recovered, cash⟩

end SignedMessage

end WalletKeys
