import Mathlib.Data.List.DropRight
import WalletKeys.Proofs.Address

/-!
# What an address commits to

No tag of the table is long, so what is written of a digest is within the limits of
the codec, and it is read as the version of the table and this digest
(`TableEntry.IsFor.reads_write`). Hence an address is refused only for want of an
entry or for the kind of its payload, and otherwise its text commits to the digest
(`address_commits`).
-/

namespace WalletKeys

theorem PublicKey.octets_eq (key : PublicKey) :
    key.octets =
      if key.compressed then key.point.compressed else key.point.uncompressed := by
  rw [octets, shortOctets_eq, longOctets_eq]

theorem PublicKey.length_witnessScript (key : PublicKey) :
    key.witnessScript.length = 22 := by
  rw [witnessScript, List.length_cons, List.length_cons, Block.length_octets]

theorem length_witnessScriptOf (script : Octets) :
    (witnessScriptOf script).length = 34 := by
  rw [witnessScriptOf, List.length_cons, List.length_cons, Block.length_octets]

/-- The lead octet of the long form is not part of an account. -/
theorem PublicKey.accountDigest_eq (key : PublicKey) :
    key.accountDigest =
      (keccak256
        (Secp256k1.Point.coordinateOctets key.point.x ++
          Secp256k1.Point.coordinateOctets key.point.y)).octets.rtake 20 := by
  rw [List.rtake, Block.length_octets]
  rfl

namespace TableEntry

/-- The decoder of an entry reads a text as the version that the table holds and a
digest. -/
inductive Reads (entry : TableEntry) (text : String) (digest : Octets) : Prop
  | versioned (style : entry.coin.style = .generic)
      (outer : entry.scheme.scheme.isWitness = false)
      (read : Base58.decodeChecked text = .ok (entry.scheme.version ++ digest))
  | witness (tag : String) (style : entry.coin.style = .generic)
      (witness : entry.scheme.scheme.isWitness = true)
      (tagged : entry.network.tag = some tag)
      (read : Segwit.decode tag text = .ok (0, digest))
  | cash (tag : String) (version : UInt8) (style : entry.coin.style = .cashAddr)
      (tagged : entry.network.tag = some tag)
      (versioned : entry.scheme.version = [version])
      (read : CashAddr.decode tag text = .ok (version, digest))
  | account (body : String) (style : entry.coin.style = .ethereum)
      (same : text = "0x" ++ body) (read : Hex.decode body = .ok digest)

namespace IsFor

variable {entry : TableEntry} {coin : Coin} {network : Network} {scheme : Scheme}
  {form : AddressForm} {payload : Payload} {digest : Octets}

/-- The text of a digest is read as the version of the table and this digest. -/
theorem reads_write (isFor : entry.IsFor coin network scheme)
    (writes : entry.Writes form) (length : digest.length ∈ form.digestLengths) :
    entry.Reads (form.write digest) digest := by
  have plain := isFor.plain_tag writes
  cases writes with
  | base58 style outer versioned =>
      refine .versioned style outer ?_
      rw [versioned, Base58.decodeChecked_eq_ok_iff]
      rfl
  | @segwit tag style witness tagged =>
      obtain ⟨-, smallTag, short, -⟩ := isFor.tag_spec tagged
      obtain ⟨oneCase, small⟩ :=
        hasOneCase_of_plain (AddressForm.plain_write rfl plain digest)
      have sizes : digest.length = 20 ∨ digest.length = 32 := by
        simpa [AddressForm.digestLengths] using length
      have fits :
          (Octets.ofText (Segwit.written tag digest)).length ≤ Segwit.longest := by
        rw [Segwit.length_ofText_written]
        omega
      refine .witness tag style witness tagged ?_
      rw [Segwit.decode_eq_ok_iff, small, smallTag]
      exact ⟨rfl, sizes, oneCase, fits, rfl⟩
  | @cashAddr tag version style tagged versioned =>
      obtain ⟨-, smallTag, -, absent⟩ := isFor.tag_spec tagged
      obtain ⟨oneCase, small⟩ :=
        hasOneCase_of_plain (AddressForm.plain_write rfl plain digest)
      have code :=
        sizeCode_of_cashAddr coin coin.mem_all entry.network isFor.network_mem
          entry.scheme isFor.scheme_mem (isFor.coin_eq ▸ style)
      rw [versioned, List.headD_cons, ← List.mem_singleton.mp length] at code
      refine .cash tag version style tagged versioned ?_
      rw [CashAddr.decode_eq_ok_iff, small, smallTag]
      exact ⟨code, oneCase, Or.inr ⟨absent, rfl⟩⟩
  | account style =>
      exact .account (Hex.encode digest) style rfl (Hex.decode_encode digest)

end IsFor

end TableEntry

/-- There is an address wherever the table has an entry and the payload is of the
kind that the scheme takes, and its text commits to the digest of the payload
(`Coin.digest?`). A key is digested in its own form, and its witness script is version
zero and a push of the digest of its short form; that of a script is version zero and
a push of the digest of the script. An account is made of both coordinates. -/
theorem address_commits (coin : Coin) (network : Network) (scheme : Scheme)
    (payload : Payload) :
    ((∀ entry : TableEntry, ¬entry.IsFor coin network scheme) →
        address coin network scheme payload =
          .error (.notInTable coin network scheme)) ∧
      (∀ entry : TableEntry, entry.IsFor coin network scheme →
        (scheme.takesKey ≠ payload.key?.isSome →
          address coin network scheme payload = .error (.payloadMismatch scheme)) ∧
        (scheme.takesKey = payload.key?.isSome →
          ∃ text digest,
            address coin network scheme payload = .ok text ∧
              coin.digest? scheme payload = some digest ∧
              entry.Reads text digest)) ∧
      (∀ key : PublicKey,
        key.octets =
            (if key.compressed then key.point.compressed else key.point.uncompressed) ∧
          key.witnessScript = 0x00 :: 0x14 :: (hash160 key.point.compressed).octets ∧
          key.witnessScript.length = 22 ∧
          key.accountDigest =
            (keccak256
              (Secp256k1.Point.coordinateOctets key.point.x ++
                Secp256k1.Point.coordinateOctets key.point.y)).octets.rtake 20) ∧
      ∀ script,
        witnessScriptOf script = 0x00 :: 0x20 :: (sha256 script).octets ∧
          (witnessScriptOf script).length = 34 := by
  refine ⟨?_, ?_, ?_, fun script => ⟨rfl, length_witnessScriptOf script⟩⟩
  · intro missing
    rw [address, tableEntry_eq_error missing]
    rfl
  · intro entry isFor
    obtain ⟨form, formed⟩ := isFor.exists_form
    have made : address coin network scheme payload = entry.address payload := by
      rw [address, tableEntry_eq_ok_iff.mpr isFor, ok_bind]
    rw [made, isFor.address_eq formed]
    constructor
    · intro mismatch
      rw [ne_eq, ← isFor.exists_digest_iff, not_exists] at mismatch
      rw [Option.eq_none_iff_forall_not_mem.mpr mismatch]
      rfl
    · intro takes
      obtain ⟨digest, digested⟩ := isFor.exists_digest_iff.mpr takes
      have writes := TableEntry.writes_of_form? formed
      rw [digested]
      exact
        ⟨form.write digest, digest, rfl, rfl,
          isFor.reads_write writes (isFor.length_digest_mem writes digested)⟩
  · intro key
    exact
      ⟨key.octets_eq, key.witnessScript_eq, key.length_witnessScript,
        key.accountDigest_eq⟩

/-- A script has a segwit address of Bitcoin, which Dogecoin lacks and which a scheme
for keys does not give. Its nested address commits to a script of 34 octets. -/
theorem address_commits_script :
    address .dogecoin .main .p2wsh (.script [0x51]) =
        .error (.notInTable .dogecoin .main .p2wsh) ∧
      address .bitcoin .main .p2wpkh (.script [0x51]) =
        .error (.payloadMismatch .p2wpkh) ∧
      (∃ text,
        address .bitcoin .main .p2wsh (.script [0x51]) = .ok text ∧
          Segwit.decode "bc" text = .ok (0, (sha256 [0x51]).octets)) ∧
      ∃ text,
        address .bitcoin .main .p2wshInP2sh (.script [0x51]) = .ok text ∧
          Base58.decodeChecked text =
            .ok (0x05 :: (hash160 (0x00 :: 0x20 :: (sha256 [0x51]).octets)).octets) := by
  let main : NetworkEntry := ⟨.main, some 0x80, some "bc", CoinTable.bitcoinMain⟩
  let forKeys : TableEntry := ⟨.bitcoin, main, ⟨.p2wpkh, [], .zpub⟩⟩
  let forScripts : TableEntry := ⟨.bitcoin, main, ⟨.p2wsh, [], .zpubMultisig⟩⟩
  let nested : TableEntry := ⟨.bitcoin, main, ⟨.p2wshInP2sh, [0x05], .ypubMultisig⟩⟩
  have isForKeys : forKeys.IsFor .bitcoin .main .p2wpkh :=
    isFor_of_tableEntry (by decide)
  have isForScripts : forScripts.IsFor .bitcoin .main .p2wsh :=
    isFor_of_tableEntry (by decide)
  have isForNested : nested.IsFor .bitcoin .main .p2wshInP2sh :=
    isFor_of_tableEntry (by decide)
  have missing (entry : TableEntry) : ¬entry.IsFor .dogecoin .main .p2wsh := by
    intro isFor
    cases tableEntry_eq_ok_iff.mpr isFor
  refine
    ⟨(address_commits .dogecoin .main .p2wsh (.script [0x51])).1 missing,
      ((address_commits .bitcoin .main .p2wpkh (.script [0x51])).2.1 forKeys
        isForKeys).1 (by decide), ?_, ?_⟩
  · obtain ⟨text, digest, made, digested, reads⟩ :=
      ((address_commits .bitcoin .main .p2wsh (.script [0x51])).2.1 forScripts
        isForScripts).2 (by decide)
    cases digested
    refine ⟨text, made, ?_⟩
    cases reads with
    | witness tag style witness tagged read =>
        cases tagged
        exact read
    | versioned style outer =>
        cases outer
    | cash tag version style | account body style =>
        cases style
  · obtain ⟨text, digest, made, digested, reads⟩ :=
      ((address_commits .bitcoin .main .p2wshInP2sh (.script [0x51])).2.1 nested
        isForNested).2 (by decide)
    cases digested
    refine ⟨text, made, ?_⟩
    cases reads with
    | versioned style outer read =>
        exact read
    | witness tag style witness =>
        cases witness
    | cash tag version style | account body style =>
        cases style

end WalletKeys
