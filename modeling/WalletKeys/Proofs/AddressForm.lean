import WalletKeys.Address
import WalletKeys.Proofs.Codec.Written

/-!
# Forms and digests of addresses

The table gives each coin, network and scheme a form in which addresses are written:
a version octet, a tag, or both (`TableEntry.form?`, `TableEntry.IsFor.exists_form`).
What is written in it is a digest of the payload, which the scheme chooses
(`Coin.digest?`). There is one exactly if the scheme takes payloads of its kind
(`TableEntry.IsFor.exists_digest_iff`), and its length fits the form
(`TableEntry.IsFor.length_digest_mem`).
-/

namespace WalletKeys

theorem Coin.mem_all (coin : Coin) : coin ∈ Coin.all := by
  cases coin <;> decide

/-- An entry is what the table holds for a coin, a network and a scheme. -/
structure TableEntry.IsFor (entry : TableEntry) (coin : Coin) (network : Network)
    (scheme : Scheme) : Prop where
  coin_eq : entry.coin = coin
  network_mem : entry.network ∈ coin.networks
  network_eq : entry.network.network = network
  scheme_mem : entry.scheme ∈ entry.network.schemes
  scheme_eq : entry.scheme.scheme = scheme

theorem tableEntry_eq_demand (coin : Coin) (network : Network) (scheme : Scheme) :
    tableEntry coin network scheme =
      demand
        ((coin.network? network).bind fun networkEntry =>
          (networkEntry.scheme? scheme).map (TableEntry.mk coin networkEntry))
        (.notInTable coin network scheme) := by
  rw [tableEntry, demand_bind]
  cases coin.network? network with
  | none =>
      rfl
  | some networkEntry =>
      rw [Option.elim_some, demand_bind, Option.bind_some]
      cases networkEntry.scheme? scheme with
      | none | some =>
          rfl

theorem isFor_of_tableEntry {coin : Coin} {network : Network} {scheme : Scheme}
    {entry : TableEntry} (found : tableEntry coin network scheme = .ok entry) :
    entry.IsFor coin network scheme := by
  rw [tableEntry_eq_demand, demand_eq_ok_iff] at found
  obtain ⟨networkEntry, networkFound, found⟩ := Option.bind_eq_some_iff.mp found
  obtain ⟨schemeEntry, schemeFound, rfl⟩ := Option.map_eq_some_iff.mp found
  exact
    { coin_eq := rfl
      network_mem := List.mem_of_find?_eq_some networkFound
      network_eq := by simpa using List.find?_some networkFound
      scheme_mem := List.mem_of_find?_eq_some schemeFound
      scheme_eq := by simpa using List.find?_some schemeFound }

theorem network?_of_mem :
    ∀ coin ∈ Coin.all, ∀ network ∈ coin.networks,
      coin.network? network.network = some network := by
  decide

theorem scheme?_of_mem :
    ∀ coin ∈ Coin.all, ∀ network ∈ coin.networks, ∀ scheme ∈ network.schemes,
      network.scheme? scheme.scheme = some scheme := by
  decide

/-- The table has at most one entry for a coin, a network and a scheme, and the
look-up finds it. -/
theorem tableEntry_eq_ok_iff {coin : Coin} {network : Network} {scheme : Scheme}
    {entry : TableEntry} :
    tableEntry coin network scheme = .ok entry ↔ entry.IsFor coin network scheme := by
  refine ⟨isFor_of_tableEntry, fun isFor => ?_⟩
  have networkFound :=
    network?_of_mem coin coin.mem_all entry.network isFor.network_mem
  have schemeFound :=
    scheme?_of_mem coin coin.mem_all entry.network isFor.network_mem entry.scheme
      isFor.scheme_mem
  rw [isFor.network_eq] at networkFound
  rw [isFor.scheme_eq] at schemeFound
  rw [tableEntry, networkFound, demand_some, ok_bind, schemeFound, demand_some,
    ok_bind, ← isFor.coin_eq]
  rfl

/-- The error of the look-up names what was looked for. -/
theorem tableEntry_eq_error {coin : Coin} {network : Network} {scheme : Scheme}
    (missing : ∀ entry : TableEntry, ¬entry.IsFor coin network scheme) :
    tableEntry coin network scheme = .error (.notInTable coin network scheme) := by
  have absent (entry : TableEntry) : tableEntry coin network scheme ≠ .ok entry :=
    fun found => missing entry (isFor_of_tableEntry found)
  simp only [tableEntry_eq_demand] at absent ⊢
  generalize (coin.network? network).bind _ = candidate at absent ⊢
  cases candidate with
  | none =>
      rfl
  | some entry =>
      exact absurd rfl (absent entry)

theorem plain_of_mem_tag :
    ∀ coin ∈ Coin.all, ∀ network ∈ coin.networks, ∀ tag ∈ network.tag,
      Text.Plain tag.toList := by
  decide

theorem tag_isSome :
    ∀ coin ∈ Coin.all, ∀ network ∈ coin.networks, ∀ scheme ∈ network.schemes,
      coin.style = .cashAddr ∨ scheme.scheme = .p2wpkh →
        network.tag.isSome = true := by
  decide

/-- No tag of the table makes an address too long, and none has a colon. -/
theorem fits_of_mem_tag :
    ∀ coin ∈ Coin.all, ∀ network ∈ coin.networks, ∀ tag ∈ network.tag,
      (Octets.ofText tag).length + 60 ≤ Segwit.longest ∧ ':' ∉ tag.toList := by
  decide

theorem sizeCode_of_cashAddr :
    ∀ coin ∈ Coin.all, ∀ network ∈ coin.networks, ∀ scheme ∈ network.schemes,
      coin.style = .cashAddr →
        CashAddr.sizeCode 20 = .ok (scheme.version.headD 0 &&& 0x07) := by
  decide

theorem takesKey_of_ethereum :
    ∀ coin ∈ Coin.all, ∀ network ∈ coin.networks, ∀ scheme ∈ network.schemes,
      coin.style = .ethereum → scheme.scheme.takesKey = true := by
  decide

theorem scheme_of_not_generic :
    ∀ coin ∈ Coin.all, ∀ network ∈ coin.networks, ∀ scheme ∈ network.schemes,
      coin.style ≠ .generic → scheme.scheme = .p2pkh ∨ scheme.scheme = .p2sh := by
  decide

namespace TableEntry

variable {entry : TableEntry} {coin : Coin} {network : Network} {scheme : Scheme}

/-- Where addresses are not generic, no scheme has a witness. -/
theorem IsFor.scheme_eq_p2pkh_or_p2sh (isFor : entry.IsFor coin network scheme)
    (special : coin.style ≠ .generic) : scheme = .p2pkh ∨ scheme = .p2sh := by
  have outer :=
    scheme_of_not_generic coin coin.mem_all entry.network isFor.network_mem
      entry.scheme isFor.scheme_mem special
  rwa [isFor.scheme_eq] at outer

theorem IsFor.scheme_eq_p2pkh (isFor : entry.IsFor coin network scheme)
    (special : coin.style ≠ .generic) (takesKey : scheme.takesKey = true) :
    scheme = .p2pkh := by
  rcases isFor.scheme_eq_p2pkh_or_p2sh special with rfl | rfl
  · rfl
  · cases takesKey

/-- Segwit and CashAddr entries have a tag. -/
theorem IsFor.exists_tag (isFor : entry.IsFor coin network scheme)
    (needed : coin.style = .cashAddr ∨ scheme = .p2wpkh) :
    ∃ tag, entry.network.tag = some tag :=
  Option.isSome_iff_exists.mp
    (tag_isSome coin coin.mem_all entry.network isFor.network_mem entry.scheme
      isFor.scheme_mem (isFor.scheme_eq.symm ▸ needed))

theorem IsFor.tag_spec (isFor : entry.IsFor coin network scheme) {tag : String}
    (tagged : entry.network.tag = some tag) :
    Text.Plain tag.toList ∧ Text.lowercase tag = tag ∧
      (Octets.ofText tag).length + 60 ≤ Segwit.longest ∧ ':' ∉ tag.toList := by
  have plain :=
    plain_of_mem_tag coin coin.mem_all entry.network isFor.network_mem tag tagged
  exact
    ⟨plain, (hasOneCase_of_plain plain).2,
      fits_of_mem_tag coin coin.mem_all entry.network isFor.network_mem tag tagged⟩

end TableEntry

/-! ## Forms -/

/-- What is written around the digest of an address. -/
inductive AddressForm where
  | base58 (version : UInt8)
  | segwit (tag : String)
  | cashAddr (tag : String) (version : UInt8)
  | account
  deriving DecidableEq, Repr

namespace AddressForm

def write : AddressForm → Octets → String
  | base58 version, digest => Base58.encodeChecked (version :: digest)
  | segwit tag, digest => Segwit.written tag digest
  | cashAddr tag version, digest => CashAddr.written tag version digest
  | account, digest => "0x" ++ Hex.encode digest

def style : AddressForm → AddressStyle
  | base58 _ => .generic
  | segwit _ => .generic
  | cashAddr _ _ => .cashAddr
  | account => .ethereum

def tag? : AddressForm → Option String
  | base58 _ => none
  | segwit tag => some tag
  | cashAddr tag _ => some tag
  | account => none

/-- The lengths of the digests that are written in a form. -/
def digestLengths : AddressForm → List ℕ
  | segwit _ => [20, 32]
  | _ => [20]

variable {form : AddressForm}

/-- Behind a tag without blanks and capitals there are none either. -/
theorem plain_write (tagged : form.tag?.isSome = true)
    (plain : ∀ tag ∈ form.tag?, Text.Plain tag.toList) (digest : Octets) :
    Text.Plain (form.write digest).toList := by
  cases form with
  | segwit tag =>
      rw [write, Segwit.written, String.toList_ofList]
      exact plain_tagged (plain tag rfl) (by decide) (by decide) _
  | cashAddr tag version =>
      rw [write, CashAddr.written, String.toList_ofList]
      exact plain_tagged (plain tag rfl) (by decide) (by decide) _
  | base58 | account =>
      cases tagged

theorem solid_write (plain : ∀ tag ∈ form.tag?, Text.Plain tag.toList)
    (digest : Octets) : Text.Solid (form.write digest).toList := by
  cases form with
  | base58 version =>
      exact Base58.solid_encodeChecked _
  | segwit | cashAddr =>
      exact (plain_write rfl plain digest).solid
  | account =>
      have lead : Text.Solid "0x".toList := by
        decide
      rw [write, String.toList_append]
      exact List.forall_mem_append.mpr ⟨lead, Hex.solid_encode _⟩

end AddressForm

/-- The octet of a version that has one octet. -/
def SchemeEntry.versionOctet? (entry : SchemeEntry) : Option UInt8 :=
  match entry.version with
  | [octet] => some octet
  | _ => none

theorem SchemeEntry.versionOctet?_eq_some_iff {entry : SchemeEntry} {octet : UInt8} :
    entry.versionOctet? = some octet ↔ entry.version = [octet] := by
  unfold versionOctet?
  split
  · next found =>
      rw [found, Option.some.injEq, List.cons.injEq, and_iff_left rfl]
  · next other =>
      exact ⟨nofun, fun one => absurd one (other octet)⟩

/-- The digest under a scheme is itself the witness program of the address. -/
def Scheme.isWitness : Scheme → Bool
  | .p2wpkh | .p2wsh => true
  | .p2pkh | .p2sh | .p2wpkhInP2sh | .p2wshInP2sh => false

namespace TableEntry

/-- The form in which addresses of an entry are written. There is none if the entry
lacks what the form needs. -/
def form? (entry : TableEntry) : Option AddressForm :=
  match entry.coin.style with
  | .generic =>
      if entry.scheme.scheme.isWitness then entry.network.tag.map .segwit
      else entry.scheme.versionOctet?.map .base58
  | .cashAddr =>
      entry.network.tag.bind fun tag =>
        entry.scheme.versionOctet?.map (.cashAddr tag)
  | .ethereum => some .account

theorem form?_isSome :
    ∀ coin ∈ Coin.all, ∀ network ∈ coin.networks, ∀ scheme ∈ network.schemes,
      (TableEntry.mk coin network scheme).form?.isSome = true := by
  decide

/-- What an entry has if its addresses are written in a form. -/
inductive Writes (entry : TableEntry) : AddressForm → Prop
  | base58 {version : UInt8} (style : entry.coin.style = .generic)
      (outer : entry.scheme.scheme.isWitness = false)
      (versioned : entry.scheme.version = [version]) : Writes entry (.base58 version)
  | segwit {tag : String} (style : entry.coin.style = .generic)
      (witness : entry.scheme.scheme.isWitness = true)
      (tagged : entry.network.tag = some tag) : Writes entry (.segwit tag)
  | cashAddr {tag : String} {version : UInt8} (style : entry.coin.style = .cashAddr)
      (tagged : entry.network.tag = some tag)
      (versioned : entry.scheme.version = [version]) :
      Writes entry (.cashAddr tag version)
  | account (style : entry.coin.style = .ethereum) : Writes entry .account

variable {entry : TableEntry} {coin : Coin} {network : Network} {scheme : Scheme}
  {form : AddressForm}

theorem writes_of_form? (formed : entry.form? = some form) : entry.Writes form := by
  unfold form? at formed
  split at formed
  · next style =>
      split at formed
      · next witness =>
          obtain ⟨tag, tagged, rfl⟩ := Option.map_eq_some_iff.mp formed
          exact .segwit style witness tagged
      · next outer =>
          obtain ⟨version, found, rfl⟩ := Option.map_eq_some_iff.mp formed
          exact
            .base58 style (Bool.eq_false_iff.mpr outer)
              (SchemeEntry.versionOctet?_eq_some_iff.mp found)
  · next style =>
      obtain ⟨tag, tagged, formed⟩ := Option.bind_eq_some_iff.mp formed
      obtain ⟨version, found, rfl⟩ := Option.map_eq_some_iff.mp formed
      exact .cashAddr style tagged (SchemeEntry.versionOctet?_eq_some_iff.mp found)
  · next style =>
      cases formed
      exact .account style

theorem IsFor.mk_eq (isFor : entry.IsFor coin network scheme) :
    TableEntry.mk coin entry.network entry.scheme = entry := by
  rw [← isFor.coin_eq]

/-- Every entry of the table has a form. -/
theorem IsFor.exists_form (isFor : entry.IsFor coin network scheme) :
    ∃ form, entry.form? = some form := by
  have present :=
    form?_isSome coin coin.mem_all entry.network isFor.network_mem entry.scheme
      isFor.scheme_mem
  rw [isFor.mk_eq] at present
  exact Option.isSome_iff_exists.mp present

theorem Writes.style_eq (writes : entry.Writes form) :
    form.style = entry.coin.style := by
  cases writes with
  | base58 style | segwit style | cashAddr style | account style =>
      rw [style]
      rfl

theorem Writes.tag_eq (writes : entry.Writes form) {tag : String}
    (member : tag ∈ form.tag?) : entry.network.tag = some tag := by
  cases writes with
  | segwit _ _ tagged | cashAddr _ tagged =>
      cases member
      exact tagged
  | base58 | account =>
      cases member

theorem IsFor.plain_tag (isFor : entry.IsFor coin network scheme)
    (writes : entry.Writes form) : ∀ tag ∈ form.tag?, Text.Plain tag.toList :=
  fun tag member =>
    plain_of_mem_tag coin coin.mem_all entry.network isFor.network_mem tag
      (writes.tag_eq member)

end TableEntry

/-! ## Digests -/

/-- The digest of a payload under a scheme, if the scheme takes such a payload. A nested
scheme digests version zero, the length of a digest, and this digest. -/
def Scheme.digest? : Scheme → Payload → Option Octets
  | .p2pkh, .key key => some (hash160 key.octets).octets
  | .p2sh, .script script => some (hash160 script).octets
  | .p2wpkhInP2sh, .key key =>
      some (hash160 (0x00 :: 0x14 :: (hash160 key.point.compressed).octets)).octets
  | .p2wshInP2sh, .script script =>
      some (hash160 (0x00 :: 0x20 :: (sha256 script).octets)).octets
  | .p2wpkh, .key key => some (hash160 key.point.compressed).octets
  | .p2wsh, .script script => some (sha256 script).octets
  | _, _ => none

theorem PublicKey.witnessScript_eq (key : PublicKey) :
    key.witnessScript = 0x00 :: 0x14 :: (hash160 key.point.compressed).octets := by
  rw [witnessScript, shortOctets_eq]

/-- The last twenty octets of the digest of the coordinates of a key. -/
def PublicKey.accountDigest (key : PublicKey) : Octets :=
  (keccak256 (key.longOctets.drop 1)).octets.drop 12

def Payload.key? : Payload → Option PublicKey
  | .key publicKey => some publicKey
  | .script _ => none

/-- The digest that an address of a coin commits to, if the scheme takes such a
payload. -/
def Coin.digest? (coin : Coin) (scheme : Scheme) (payload : Payload) : Option Octets :=
  match coin.style with
  | .generic | .cashAddr => scheme.digest? payload
  | .ethereum => payload.key?.map PublicKey.accountDigest

theorem Coin.digest?_eq_of_style {coin : Coin} (style : coin.style ≠ .ethereum)
    (scheme : Scheme) (payload : Payload) :
    coin.digest? scheme payload = scheme.digest? payload := by
  unfold digest?
  split
  · rfl
  · rfl
  · next ethereum => exact absurd ethereum style

theorem Scheme.isSome_digest? (scheme : Scheme) (payload : Payload) :
    (scheme.digest? payload).isSome = (scheme.takesKey == payload.key?.isSome) := by
  cases scheme with
  | p2pkh | p2sh | p2wpkh | p2wsh | p2wpkhInP2sh | p2wshInP2sh =>
      cases payload with
      | key | script =>
          rfl

theorem PublicKey.length_accountDigest (key : PublicKey) :
    key.accountDigest.length = 20 := by
  rw [accountDigest, List.length_drop, Block.length_octets]

/-- Only a digest that is a witness program can be longer than twenty octets. -/
theorem Scheme.length_digest {scheme : Scheme} {payload : Payload} {digest : Octets}
    (found : scheme.digest? payload = some digest) :
    digest.length = 20 ∨ scheme = .p2wsh ∧ digest.length = 32 := by
  unfold digest? at found
  split at found
  case h_6 =>
    cases found
    exact Or.inr ⟨rfl, Block.length_octets _⟩
  case h_7 =>
    cases found
  all_goals
    cases found
    exact Or.inl (Block.length_octets _)

namespace TableEntry

variable {entry : TableEntry} {coin : Coin} {network : Network} {scheme : Scheme}
  {form : AddressForm} {payload : Payload} {digest : Octets}

/-- Only the kind of a payload decides whether it has a digest. -/
theorem IsFor.exists_digest_iff (isFor : entry.IsFor coin network scheme) :
    (∃ digest, coin.digest? scheme payload = some digest) ↔
      scheme.takesKey = payload.key?.isSome := by
  rw [← Option.isSome_iff_exists]
  by_cases style : coin.style = .ethereum
  · have takesKey :=
      takesKey_of_ethereum coin coin.mem_all entry.network isFor.network_mem
        entry.scheme isFor.scheme_mem style
    rw [isFor.scheme_eq] at takesKey
    rw [Coin.digest?, style, takesKey, Option.isSome_map, eq_comm]
  · rw [Coin.digest?_eq_of_style style, Scheme.isSome_digest?, beq_iff_eq]

/-- The digests of an entry have a length that its form takes. -/
theorem IsFor.length_digest_mem (isFor : entry.IsFor coin network scheme)
    (writes : entry.Writes form)
    (found : coin.digest? scheme payload = some digest) :
    digest.length ∈ form.digestLengths := by
  obtain rfl := isFor.coin_eq
  obtain rfl := isFor.scheme_eq
  by_cases style : entry.coin.style = .ethereum
  · rw [Coin.digest?, style] at found
    obtain ⟨key, -, rfl⟩ := Option.map_eq_some_iff.mp found
    rw [key.length_accountDigest]
    cases form <;> exact List.mem_cons_self ..
  · rw [Coin.digest?_eq_of_style style] at found
    rcases Scheme.length_digest found with length | ⟨long, length⟩
    · rw [length]
      cases form <;> exact List.mem_cons_self ..
    · rw [length]
      cases writes with
      | base58 _ outer =>
          rw [long] at outer
          cases outer
      | segwit =>
          exact List.mem_cons_of_mem _ (List.mem_cons_self ..)
      | cashAddr cash =>
          have special : entry.coin.style ≠ .generic := by
            rw [cash]
            decide
          rcases isFor.scheme_eq_p2pkh_or_p2sh special with other | other
          · rw [long] at other
            cases other
          · rw [long] at other
            cases other
      | account ethereum =>
          exact absurd ethereum style

end TableEntry

end WalletKeys
