import WalletKeys.Proofs.AddressForm

/-!
# What an address is made of

An address is the digest of its payload in the form that the table gives, and where
the table has an entry only a payload of the wrong kind is refused
(`TableEntry.IsFor.address_eq`, `address_eq_ok_iff`). So every key has an address
under each key scheme of the table (`exists_address`), and only the digest of a key
itself depends on the form in which the key is written
(`addressOfKey_withCompression`).
-/

namespace WalletKeys

namespace TableEntry

variable {entry : TableEntry} {coin : Coin} {network : Network} {scheme : Scheme}
  {form : AddressForm} {digest : Octets}

theorem segwit_eq_ok {tag : String} (tagged : entry.network.tag = some tag)
    (plain : Text.Plain tag.toList)
    (length : digest.length = 20 ∨ digest.length = 32) :
    entry.segwit digest = .ok (Segwit.written tag digest) := by
  obtain ⟨oneCase, small⟩ := hasOneCase_of_plain plain
  rw [segwit, requiredTag, tagged, demand_some, ok_bind, mapError_eq_ok_iff,
    Segwit.encode_eq_ok_iff, small]
  exact ⟨rfl, length, oneCase, rfl⟩

theorem genericAddress_of_outer {version : UInt8}
    (outer : entry.scheme.scheme.isWitness = false)
    (versioned : entry.scheme.version = [version]) (payload : Payload) :
    entry.genericAddress payload =
      demand
        ((entry.scheme.scheme.digest? payload).map
          (AddressForm.base58 version).write)
        (.payloadMismatch entry.scheme.scheme) := by
  have written (digest : Octets) :
      entry.versioned digest = (AddressForm.base58 version).write digest := by
    rw [TableEntry.versioned, versioned]
    rfl
  unfold genericAddress Scheme.digest?
  cases scheme : entry.scheme.scheme with
  | p2pkh | p2sh | p2wpkhInP2sh | p2wshInP2sh =>
      simp only [written, PublicKey.witnessScript_eq, witnessScriptOf]
      cases payload with
      | key | script =>
          rfl
  | p2wpkh | p2wsh =>
      rw [scheme] at outer
      cases outer

theorem genericAddress_of_witness {tag : String}
    (witness : entry.scheme.scheme.isWitness = true)
    (tagged : entry.network.tag = some tag) (plain : Text.Plain tag.toList)
    (payload : Payload) :
    entry.genericAddress payload =
      demand
        ((entry.scheme.scheme.digest? payload).map (AddressForm.segwit tag).write)
        (.payloadMismatch entry.scheme.scheme) := by
  unfold genericAddress Scheme.digest?
  cases scheme : entry.scheme.scheme with
  | p2wpkh =>
      cases payload with
      | key key =>
          dsimp only
          rw [key.shortOctets_eq]
          exact segwit_eq_ok tagged plain (Or.inl (Block.length_octets _))
      | script =>
          rfl
  | p2wsh =>
      cases payload with
      | key =>
          rfl
      | script script =>
          exact segwit_eq_ok tagged plain (Or.inr (Block.length_octets _))
  | p2pkh | p2sh | p2wpkhInP2sh | p2wshInP2sh =>
      rw [scheme] at witness
      cases witness

theorem cashAddress_eq {tag : String}
    (outer : entry.scheme.scheme = .p2pkh ∨ entry.scheme.scheme = .p2sh)
    (tagged : entry.network.tag = some tag) (plain : Text.Plain tag.toList)
    (payload : Payload) :
    entry.cashAddress payload =
      demand
        ((entry.scheme.scheme.digest? payload).map
          (AddressForm.cashAddr tag (entry.scheme.version.headD 0)).write)
        (.payloadMismatch entry.scheme.scheme) := by
  obtain ⟨oneCase, small⟩ := hasOneCase_of_plain plain
  have written (digest : Octets) :
      CashAddr.encode tag (entry.scheme.version.headD 0) digest =
        .ok (CashAddr.written tag (entry.scheme.version.headD 0) digest) := by
    rw [CashAddr.encode_eq_ok_iff, small]
    exact ⟨oneCase, rfl⟩
  rw [cashAddress, requiredTag, tagged, demand_some, ok_bind]
  unfold cashDigest
  rcases outer with scheme | scheme
  · rw [scheme]
    cases payload with
    | key key =>
        exact congrArg (Except.mapError WalletError.codec) (written _)
    | script =>
        rfl
  · rw [scheme]
    cases payload with
    | key =>
        rfl
    | script script =>
        exact congrArg (Except.mapError WalletError.codec) (written _)

theorem ethereumAddress_eq (entry : TableEntry) (payload : Payload) :
    entry.ethereumAddress payload =
      demand
        ((payload.key?.map PublicKey.accountDigest).map AddressForm.account.write)
        (.payloadMismatch entry.scheme.scheme) := by
  cases payload with
  | key | script =>
      rfl

/-- The table makes of a payload its digest in the form of the entry. A payload
without a digest is refused, and nothing else is. -/
theorem IsFor.address_eq (isFor : entry.IsFor coin network scheme)
    (formed : entry.form? = some form) (payload : Payload) :
    entry.address payload =
      demand ((coin.digest? scheme payload).map form.write)
        (.payloadMismatch scheme) := by
  have writes := writes_of_form? formed
  have plain := isFor.plain_tag writes
  rw [← isFor.coin_eq, ← isFor.scheme_eq]
  unfold address Coin.digest?
  cases writes with
  | base58 style outer versioned =>
      rw [style]
      exact genericAddress_of_outer outer versioned payload
  | segwit style witness tagged =>
      rw [style]
      exact genericAddress_of_witness witness tagged (plain _ rfl) payload
  | cashAddr style tagged versioned =>
      have special : coin.style ≠ .generic := by
        rw [← isFor.coin_eq, style]
        decide
      have outer := isFor.scheme_eq_p2pkh_or_p2sh special
      rw [← isFor.scheme_eq] at outer
      have made := cashAddress_eq outer tagged (plain _ rfl) payload
      rw [versioned] at made
      rw [style]
      exact made
  | account style =>
      rw [style]
      exact entry.ethereumAddress_eq payload

end TableEntry

/-- The form that the table gives for a coin, a network and a scheme. -/
def addressForm? (coin : Coin) (network : Network) (scheme : Scheme) :
    Option AddressForm :=
  (tableEntry coin network scheme).toOption.bind TableEntry.form?

section

variable {coin : Coin} {network : Network} {scheme : Scheme}

theorem addressForm?_eq_some_iff {form : AddressForm} :
    addressForm? coin network scheme = some form ↔
      ∃ entry,
        tableEntry coin network scheme = .ok entry ∧ entry.form? = some form := by
  simp only [addressForm?, Option.bind_eq_some_iff, toOption_eq_some_iff]

theorem address_eq_of_form {form : AddressForm}
    (formed : addressForm? coin network scheme = some form) (payload : Payload) :
    address coin network scheme payload =
      demand ((coin.digest? scheme payload).map form.write)
        (.payloadMismatch scheme) := by
  obtain ⟨entry, found, formed⟩ := addressForm?_eq_some_iff.mp formed
  rw [address, found, ok_bind]
  exact (isFor_of_tableEntry found).address_eq formed payload

/-- An address is the digest of its payload, in the form of the table. -/
theorem address_eq_ok_iff {payload : Payload} {text : String} :
    address coin network scheme payload = .ok text ↔
      ∃ form digest,
        addressForm? coin network scheme = some form ∧
          coin.digest? scheme payload = some digest ∧ text = form.write digest := by
  constructor
  · intro made
    obtain ⟨entry, found, -⟩ := bind_eq_ok_iff.mp made
    obtain ⟨form, formed⟩ := (isFor_of_tableEntry found).exists_form
    have given : addressForm? coin network scheme = some form :=
      addressForm?_eq_some_iff.mpr ⟨entry, found, formed⟩
    rw [address_eq_of_form given, demand_eq_ok_iff] at made
    obtain ⟨digest, digested, rfl⟩ := Option.map_eq_some_iff.mp made
    exact ⟨form, digest, given, digested, rfl⟩
  · rintro ⟨form, digest, given, digested, rfl⟩
    rw [address_eq_of_form given, digested]
    rfl

end

section

variable {coin : Coin} {network : Network} {scheme : Scheme} {entry : TableEntry}

theorem addressOfKey_eq (found : tableEntry coin network scheme = .ok entry)
    (key : PublicKey) :
    addressOfKey coin network scheme key = entry.address (.key key) := by
  rw [addressOfKey, address, found, ok_bind]

theorem addressOfKey_eq_of_style (found : tableEntry coin network scheme = .ok entry)
    (key : PublicKey) :
    addressOfKey coin network scheme key =
      match coin.style with
      | .generic => entry.genericAddress (.key key)
      | .ethereum => entry.ethereumAddress (.key key)
      | .cashAddr => entry.cashAddress (.key key) := by
  rw [addressOfKey_eq found, ← (isFor_of_tableEntry found).coin_eq]
  rfl

/-- The table leads to an address of every key. It has no blanks, and no capitals
unless it is compared exactly. -/
theorem exists_address (found : tableEntry coin network scheme = .ok entry)
    (takesKey : scheme.takesKey = true) (key : PublicKey) :
    ∃ text,
      addressOfKey coin network scheme key = .ok text ∧ Text.Solid text.toList ∧
        (coin.style = .cashAddr ∨ coin.style = .generic ∧ scheme = .p2wpkh →
          Text.Plain text.toList) := by
  have isFor := isFor_of_tableEntry found
  obtain ⟨form, formed⟩ := isFor.exists_form
  obtain ⟨digest, digested⟩ :
      ∃ digest, coin.digest? scheme (.key key) = some digest :=
    isFor.exists_digest_iff.mpr takesKey
  have writes := TableEntry.writes_of_form? formed
  have plain := isFor.plain_tag writes
  refine
    ⟨form.write digest, ?_, AddressForm.solid_write plain digest, fun special => ?_⟩
  · rw [addressOfKey_eq found, isFor.address_eq formed, digested]
    rfl
  · apply AddressForm.plain_write _ plain
    rw [← isFor.coin_eq, ← isFor.scheme_eq] at special
    cases writes with
    | segwit | cashAddr =>
        rfl
    | base58 style outer =>
        rcases special with cash | ⟨-, witness⟩
        · rw [style] at cash
          cases cash
        · rw [witness] at outer
          cases outer
    | account style =>
        rw [style] at special
        rcases special with cash | ⟨generic, -⟩
        · cases cash
        · cases generic

/-- Witness programs are made of the short form, whichever form the key asks
for. -/
theorem addressOfKey_withCompression
    (found : tableEntry coin network scheme = .ok entry)
    (witness : scheme ≠ .p2pkh) (key : PublicKey) (compressed : Bool) :
    addressOfKey coin network scheme (key.withCompression compressed) =
      addressOfKey coin network scheme key := by
  have isFor := isFor_of_tableEntry found
  obtain ⟨form, formed⟩ := isFor.exists_form
  have digest :
      coin.digest? scheme (.key (key.withCompression compressed)) =
        coin.digest? scheme (.key key) := by
    unfold Coin.digest?
    cases coin.style with
    | generic | cashAddr =>
        cases scheme with
        | p2pkh =>
            exact absurd rfl witness
        | p2sh | p2wpkh | p2wsh | p2wpkhInP2sh | p2wshInP2sh =>
            rfl
    | ethereum =>
        rfl
  rw [addressOfKey_eq found, addressOfKey_eq found, isFor.address_eq formed,
    isFor.address_eq formed, digest]

end

end WalletKeys
