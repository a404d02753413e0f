import WalletKeys.Proofs.Address

/-!
# Networks and kinds of addresses are told apart

The text of an address says in which form it is written and what the digest is, once
the style of the coin is known (`AddressForm.write_injective`): each codec writes
every text in one way only, and a text in checked Base58 is shorter than any segwit
address. The table gives no form to the main network and to another one, nor to
public keys and to something else (`forms_separated`), so neither is ever confused
(`addresses_separated`). Only the schemes of script addresses share forms, and the
networks beside the main one.
-/

namespace WalletKeys

namespace AddressForm

variable {form other : AddressForm} {digest otherDigest : Octets}

theorem le_length_of_mem_digestLengths (length : digest.length ∈ form.digestLengths) :
    20 ≤ digest.length := by
  have least : ∀ size ∈ form.digestLengths, 20 ≤ size := by
    cases form <;> simp [digestLengths]
  exact least _ length

/-- A version octet and twenty octets in checked Base58 are at most 35 characters,
while a segwit address has at least forty behind its tag. -/
theorem base58_ne_segwit {version : UInt8} {tag : String}
    (length : digest.length = 20) (least : 20 ≤ otherDigest.length) :
    (base58 version).write digest ≠ (segwit tag).write otherDigest := by
  intro same
  have short := Base58.length_encodeChecked_le (version :: digest)
  have long := Segwit.length_toList_written tag otherDigest
  have lengths :
      (Base58.encodeChecked (version :: digest)).toList.length =
        (Segwit.written tag otherDigest).toList.length :=
    congrArg (fun text : String => text.toList.length) same
  rw [List.length_cons, length] at short
  omega

/-- Within a style the text determines the form and the digest. -/
theorem write_injective (style : form.style = other.style)
    (special : form.style ≠ .ethereum)
    (length : digest.length ∈ form.digestLengths)
    (otherLength : otherDigest.length ∈ other.digestLengths)
    (same : form.write digest = other.write otherDigest) :
    form = other ∧ digest = otherDigest := by
  have least := le_length_of_mem_digestLengths length
  have otherLeast := le_length_of_mem_digestLengths otherLength
  cases form with
  | base58 version =>
      cases other with
      | base58 otherVersion =>
          have payloads := Base58.encodeChecked_injective same
          rw [List.cons.injEq] at payloads
          exact ⟨congrArg base58 payloads.1, payloads.2⟩
      | segwit tag =>
          exact
            absurd same (base58_ne_segwit (List.mem_singleton.mp length) otherLeast)
      | cashAddr | account =>
          cases style
  | segwit tag =>
      cases other with
      | segwit otherTag =>
          obtain ⟨tags, digests⟩ := Segwit.written_injective same
          exact ⟨congrArg segwit tags, digests⟩
      | base58 version =>
          exact
            absurd same.symm
              (base58_ne_segwit (List.mem_singleton.mp otherLength) least)
      | cashAddr | account =>
          cases style
  | cashAddr tag version =>
      cases other with
      | cashAddr otherTag otherVersion =>
          obtain ⟨rfl, rfl, digests⟩ := CashAddr.written_injective same
          exact ⟨rfl, digests⟩
      | base58 | segwit | account =>
          cases style
  | account =>
      exact absurd rfl special

end AddressForm

theorem Coin.style_ne_ethereum {coin : Coin} (special : coin ≠ .ethereum) :
    coin.style ≠ .ethereum := by
  cases coin with
  | ethereum =>
      exact absurd rfl special
  | bitcoin | litecoin | dogecoin | dash | bitcoinCash =>
      decide

/-- No form of a coin belongs to the main network and to another one, and none to
the digest of a public key and to another scheme. -/
theorem forms_separated :
    ∀ coin ∈ Coin.all, coin ≠ .ethereum →
      ∀ network ∈ coin.networks, ∀ other ∈ coin.networks,
        ∀ scheme ∈ network.schemes, ∀ otherScheme ∈ other.schemes,
          (TableEntry.mk coin network scheme).form? =
              (TableEntry.mk coin other otherScheme).form? →
            (network.network = .main ↔ other.network = .main) ∧
              (scheme.scheme = .p2pkh ↔ otherScheme.scheme = .p2pkh) := by
  decide

section

variable {coin : Coin} {network otherNetwork : Network} {scheme otherScheme : Scheme}

theorem separated_of_addressForm? {form : AddressForm} (special : coin ≠ .ethereum)
    (formed : addressForm? coin network scheme = some form)
    (otherFormed : addressForm? coin otherNetwork otherScheme = some form) :
    (network = .main ↔ otherNetwork = .main) ∧
      (scheme = .p2pkh ↔ otherScheme = .p2pkh) := by
  obtain ⟨entry, found, formed⟩ := addressForm?_eq_some_iff.mp formed
  obtain ⟨other, otherFound, otherFormed⟩ := addressForm?_eq_some_iff.mp otherFormed
  have isFor := isFor_of_tableEntry found
  have otherIsFor := isFor_of_tableEntry otherFound
  have separated :=
    forms_separated coin coin.mem_all special entry.network isFor.network_mem
      other.network otherIsFor.network_mem entry.scheme isFor.scheme_mem other.scheme
      otherIsFor.scheme_mem
  rw [isFor.mk_eq, otherIsFor.mk_eq, isFor.network_eq, otherIsFor.network_eq,
    isFor.scheme_eq, otherIsFor.scheme_eq] at separated
  exact separated (formed.trans otherFormed.symm)

/-- What stands in a form of the table is a form of the style of the coin and a
digest of a length that it takes. -/
theorem style_and_length_of_addressForm? {payload : Payload} {form : AddressForm}
    {digest : Octets} (formed : addressForm? coin network scheme = some form)
    (digested : coin.digest? scheme payload = some digest) :
    form.style = coin.style ∧ digest.length ∈ form.digestLengths := by
  obtain ⟨entry, found, formed⟩ := addressForm?_eq_some_iff.mp formed
  have isFor := isFor_of_tableEntry found
  have writes := TableEntry.writes_of_form? formed
  refine ⟨?_, isFor.length_digest_mem writes digested⟩
  rw [writes.style_eq, isFor.coin_eq]

/-- Two addresses of a coin other than Ethereum with the same text are written in
one form, with one version octet or tag, and commit to one digest. Both are of the
main network or neither is, and both name a public key by its digest or neither
does. -/
theorem addresses_separated (special : coin ≠ .ethereum)
    {payload otherPayload : Payload} {text : String}
    (made : address coin network scheme payload = .ok text)
    (otherMade : address coin otherNetwork otherScheme otherPayload = .ok text) :
    (∃ form digest,
      addressForm? coin network scheme = some form ∧
        addressForm? coin otherNetwork otherScheme = some form ∧
          scheme.digest? payload = some digest ∧
            otherScheme.digest? otherPayload = some digest ∧
              text = form.write digest) ∧
      (network = .main ↔ otherNetwork = .main) ∧
        (scheme = .p2pkh ↔ otherScheme = .p2pkh) := by
  have style := Coin.style_ne_ethereum special
  obtain ⟨form, digest, formed, digested, rfl⟩ := address_eq_ok_iff.mp made
  obtain ⟨other, otherDigest, otherFormed, otherDigested, same⟩ :=
    address_eq_ok_iff.mp otherMade
  have ⟨styleEq, length⟩ := style_and_length_of_addressForm? formed digested
  have ⟨otherStyleEq, otherLength⟩ :=
    style_and_length_of_addressForm? otherFormed otherDigested
  obtain ⟨rfl, rfl⟩ :=
    AddressForm.write_injective (styleEq.trans otherStyleEq.symm)
      (styleEq ▸ style) length otherLength same
  rw [Coin.digest?_eq_of_style style] at digested otherDigested
  exact
    ⟨⟨form, digest, formed, otherFormed, digested, otherDigested, rfl⟩,
      separated_of_addressForm? special formed otherFormed⟩

end

/-- On the test networks of Bitcoin a nested witness has the address of its script. -/
theorem addresses_separated_nested :
    let key := PublicKey.mk Secp256k1.Point.generator true
    let text := Base58.encodeChecked (0xc4 :: (hash160 key.witnessScript).octets)
    address .bitcoin .test .p2wpkhInP2sh (.key key) = .ok text ∧
      address .bitcoin .regtest .p2sh (.script key.witnessScript) = .ok text ∧
        addressForm? .bitcoin .test .p2wpkhInP2sh =
          addressForm? .bitcoin .regtest .p2sh := by
  intro key text
  have made : address .bitcoin .test .p2wpkhInP2sh (.key key) = .ok text :=
    address_eq_ok_iff.mpr ⟨.base58 0xc4, _, by decide, rfl, rfl⟩
  have otherMade :
      address .bitcoin .regtest .p2sh (.script key.witnessScript) = .ok text :=
    address_eq_ok_iff.mpr ⟨.base58 0xc4, _, by decide, rfl, rfl⟩
  obtain ⟨⟨form, digest, formed, otherFormed, -⟩, -⟩ :=
    addresses_separated (by decide) made otherMade
  exact ⟨made, otherMade, formed.trans otherFormed.symm⟩

end WalletKeys
