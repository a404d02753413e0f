import WalletKeys.Key.Wif
import WalletKeys.Proofs.Codec.Base58
import WalletKeys.Proofs.KeyPair

/-!
# Exported secrets

The form of a key is told by the length of what it exports, so that octets and the
keys that export them determine each other (`PrivateKey.ofOctets_eq_ok_iff`,
`PrivateKey.wifForm_eq_ok_iff`). A text is read as a key exactly if it is what the
key exports for the network (`PrivateKey.ofWif_eq_ok_iff_toWif`), and networks read
each other's texts if their octets are the same (`PrivateKey.wif_canonical`).
-/

namespace WalletKeys

/-- The octet that the table has for the exported secrets of a network. -/
def wifOctet? (coin : Coin) (network : Network) : Option UInt8 :=
  (coin.network? network).bind NetworkEntry.wif

theorem wifVersion_eq (coin : Coin) (network : Network) :
    wifVersion coin network =
      demand (wifOctet? coin network) (.notInTable coin network .p2pkh) := by
  rw [wifVersion, networkEntry, demand_bind, wifOctet?]
  cases coin.network? network with
  | none =>
      rfl
  | some entry =>
      rfl

namespace PrivateKey

theorem ofOctets_eq_ok_iff {octets : Octets} {key : PrivateKey} :
    ofOctets octets = .ok key ↔ key.compressed = true ∧ octets = key.octets := by
  constructor
  · intro read
    obtain ⟨length, made⟩ := require_bind_eq_ok_iff.mp read
    obtain ⟨secret, found, rfl⟩ :=
      Option.map_eq_some_iff.mp (demand_eq_ok_iff.mp made)
    refine ⟨rfl, ?_⟩
    change _ = Octets.ofNat 32 secret.value
    rw [Scalar.value_of_ofNat? found, Octets.ofNat_toNat length]
  · rintro ⟨short, rfl⟩
    rw [ofOctets, require_bind, if_pos key.length_octets, ofNat, toNat_octets,
      Scalar.ofNat?_value, Option.map_some, demand_some, ← short, ofScalar_secret]

/-- Behind the octet of the network there are 32 octets, and `01` for the short
form. -/
theorem wifForm_eq_ok_iff {payload : Octets} {compressed : Bool} :
    wifForm payload = .ok compressed ↔
      ∃ version body, body.length = 32 ∧
        payload = version :: (body ++ if compressed then [0x01] else []) := by
  constructor
  · intro known
    unfold wifForm at known
    split at known
    · next length =>
        cases known
        obtain ⟨version, body, rfl⟩ := List.exists_cons_of_length_eq_add_one length
        exact ⟨version, body, Nat.succ.inj length, by simp⟩
    · split at known
      · next last =>
          cases known
          obtain ⟨length, last⟩ := last
          obtain ⟨front, rfl⟩ := List.getLast?_eq_some_iff.mp last
          rw [List.length_append] at length
          obtain ⟨version, body, rfl⟩ :=
            List.exists_cons_of_length_eq_add_one (Nat.succ.inj length)
          exact ⟨version, body, Nat.succ.inj (Nat.succ.inj length), rfl⟩
      · cases known
  · rintro ⟨version, body, length, rfl⟩
    cases compressed with
    | false =>
        rw [if_neg Bool.false_ne_true, List.append_nil]
        exact if_pos (congrArg Nat.succ length)
    | true =>
        have whole : (version :: (body ++ [0x01])).length = 34 := by
          rw [List.length_cons, List.length_append, length]
          rfl
        have last : (version :: (body ++ [0x01])).getLast? = some 0x01 :=
          List.getLast?_concat (l := version :: body)
        rw [if_pos rfl, wifForm, whole, if_neg (by decide), if_pos ⟨rfl, last⟩]

theorem wifForm_exported (version : UInt8) (key : PrivateKey) :
    wifForm (version :: key.exported) = .ok key.compressed :=
  wifForm_eq_ok_iff.mpr ⟨version, key.octets, key.length_octets, rfl⟩

/-- The secret that a payload holds has the octets behind that of the network. -/
theorem ofOctets_exported (version : UInt8) (key : PrivateKey) :
    ofOctets (((version :: key.exported).drop 1).take 32) =
      .ok (key.withCompression true) := by
  rw [List.drop_one, List.tail_cons, exported, List.take_left' key.length_octets]
  exact ofOctets_eq_ok_iff.mpr ⟨rfl, rfl⟩

/-- A payload is what the key exports that is read from it. -/
theorem eq_exported_of_wifForm {payload : Octets} {compressed : Bool}
    {own : PrivateKey} (known : wifForm payload = .ok compressed)
    (read : ofOctets ((payload.drop 1).take 32) = .ok own) :
    payload = payload.headD 0 :: (own.withCompression compressed).exported := by
  obtain ⟨version, body, length, rfl⟩ := wifForm_eq_ok_iff.mp known
  rw [List.drop_one, List.tail_cons, List.take_left' length] at read
  obtain ⟨-, rfl⟩ := ofOctets_eq_ok_iff.mp read
  rfl

variable {text : String} {coin : Coin} {network : Network} {key : PrivateKey}

theorem toWif_eq_ok_iff :
    key.toWif coin network = .ok text ↔
      ∃ version, wifOctet? coin network = some version ∧
        text = Base58.encodeChecked (version :: key.exported) := by
  rw [toWif, wifVersion_eq, demand_bind_eq_ok_iff]
  constructor
  · rintro ⟨version, registered, made⟩
    cases made
    exact ⟨version, registered, rfl⟩
  · rintro ⟨version, registered, rfl⟩
    exact ⟨version, registered, rfl⟩

theorem ofWif_encodeChecked {expected : UInt8}
    (registered : wifOctet? coin network = some expected) (version : UInt8)
    (key : PrivateKey) :
    ofWif (Base58.encodeChecked (version :: key.exported)) coin network =
      if version = expected then .ok key else .error (.wifMismatch version) := by
  have decoded :
      (Base58.decodeChecked (Base58.encodeChecked (version :: key.exported))).mapError
          WalletError.codec =
        .ok (version :: key.exported) :=
    mapError_eq_ok_iff.mpr (Base58.decodeChecked_eq_ok_iff.mpr rfl)
  rw [ofWif, wifVersion_eq, registered, demand_some, ok_bind, decoded, ok_bind,
    wifForm_exported, ok_bind, require_bind, ofOctets_exported, ok_bind]
  rfl

theorem ofWif_of_wifOctet?_eq_none (absent : wifOctet? coin network = none)
    (text : String) :
    ofWif text coin network = .error (.notInTable coin network .p2pkh) := by
  rw [ofWif, wifVersion_eq, absent]
  rfl

/-- A text is read as a key exactly if the key is written as it. -/
theorem ofWif_eq_ok_iff_toWif :
    ofWif text coin network = .ok key ↔ key.toWif coin network = .ok text := by
  rw [toWif_eq_ok_iff]
  constructor
  · intro read
    rw [ofWif, wifVersion_eq] at read
    obtain ⟨expected, registered, afterVersion⟩ := demand_bind_eq_ok_iff.mp read
    obtain ⟨payload, decoded, afterPayload⟩ := bind_eq_ok_iff.mp afterVersion
    obtain ⟨compressed, known, afterForm⟩ := bind_eq_ok_iff.mp afterPayload
    obtain ⟨same, afterMatch⟩ := require_bind_eq_ok_iff.mp afterForm
    obtain ⟨own, ownRead, made⟩ := bind_eq_ok_iff.mp afterMatch
    cases made
    rw [mapError_eq_ok_iff, Base58.decodeChecked_eq_ok_iff] at decoded
    have whole := eq_exported_of_wifForm known ownRead
    rw [same] at whole
    exact ⟨expected, registered, whole ▸ decoded⟩
  · rintro ⟨version, registered, rfl⟩
    rw [ofWif_encodeChecked registered, if_pos rfl]

/-- A key has a text in each network that has an octet for exported secrets, which
holds that octet, the secret and the form of the key. Every network with the same
octet reads it as the key, one with another octet refuses it for the octet that it
holds, and one without is refused itself. No other text is read as a key: each is
what the key exports for that network. -/
theorem wif_canonical :
    (∀ (key : PrivateKey) (coin : Coin) (network : Network) (version : UInt8),
      wifOctet? coin network = some version →
        ∃ text, key.toWif coin network = .ok text ∧
          Base58.decodeChecked text =
            .ok (version :: (key.octets ++ if key.compressed then [0x01] else [])) ∧
          ∀ (other : Coin) (otherNetwork : Network),
            (∀ expected, wifOctet? other otherNetwork = some expected →
              ofWif text other otherNetwork =
                if version = expected then .ok key else .error (.wifMismatch version)) ∧
              (wifOctet? other otherNetwork = none →
                ofWif text other otherNetwork =
                  .error (.notInTable other otherNetwork .p2pkh))) ∧
      ∀ (text : String) (coin : Coin) (network : Network) (key : PrivateKey),
        ofWif text coin network = .ok key → key.toWif coin network = .ok text := by
  constructor
  · intro key coin network version registered
    refine
      ⟨Base58.encodeChecked (version :: key.exported),
        toWif_eq_ok_iff.mpr ⟨version, registered, rfl⟩,
        Base58.decodeChecked_eq_ok_iff.mpr rfl, ?_⟩
    intro other otherNetwork
    exact
      ⟨fun expected otherRegistered => ofWif_encodeChecked otherRegistered version key,
        fun absent => ofWif_of_wifOctet?_eq_none absent _⟩
  · intro text coin network key read
    exact ofWif_eq_ok_iff_toWif.mp read

/-- The secret one ends in `01` and has a key in the long form, which a coin with the
same octet reads and others refuse, one of them for want of an octet, one of them for
want of the network. -/
theorem wif_canonical_trailing_one :
    let key := ofScalar Scalar.one false
    let text := "5HpHagT65TZzG1PH3CSu63k8DbpvD8s5ip4nEB3kEsreAnchuDf"
    wifOctet? .bitcoin .main = some 0x80 ∧ key.toWif .bitcoin .main = .ok text ∧
      ofWif text .bitcoinCash .main = .ok key ∧
      ofWif text .litecoin .main = .error (.wifMismatch 0x80) ∧
      ofWif text .ethereum .main = .error (.notInTable .ethereum .main .p2pkh) ∧
      ofWif text .dogecoin .regtest =
        .error (.notInTable .dogecoin .regtest .p2pkh) ∧
      key.toWif .bitcoinCash .main = .ok text := by
  intro key text
  obtain ⟨writes, reads⟩ := wif_canonical
  have registered : wifOctet? .bitcoin .main = some 0x80 :=
    rfl
  have written : key.toWif .bitcoin .main = .ok text := by
    decide +kernel
  obtain ⟨own, made, -, others⟩ := writes key .bitcoin .main 0x80 registered
  rw [written] at made
  cases made
  have read : ofWif text .bitcoinCash .main = .ok key :=
    (others .bitcoinCash .main).1 0x80 rfl
  exact
    ⟨registered, written, read, (others .litecoin .main).1 0xb0 rfl,
      (others .ethereum .main).2 rfl, (others .dogecoin .regtest).2 rfl,
      reads text .bitcoinCash .main key read⟩

end PrivateKey

end WalletKeys
