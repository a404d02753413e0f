import WalletKeys.Proofs.Address
import WalletKeys.Proofs.Codec.Base64
import WalletKeys.Proofs.Ecdsa.Recovery
import WalletKeys.SignedMessage

/-!
# Signed messages verify

The header and the two numbers of a signature are read back as they were
written, with a label in front or without one, and recovery leads to the point
of the signer. The address of the signer is among those that are tried and is
the same as itself, whatever its style. Nothing here asks whether verification
of the numbers alone would accept them.
-/

namespace WalletKeys

open Secp256k1

namespace Signature

theorem ofCompact_compact {signature : Signature}
    (inRange : signature.inRange = true) :
    ofCompact signature.compact = .ok ⟨signature.r, signature.s, none⟩ := by
  have width := Scalar.groupOrder_lt_octets
  obtain ⟨⟨-, rBound⟩, -, sBound⟩ := (Ecdsa.inRange_iff signature).mp inRange
  have first : Octets.toNat (signature.compact.take 32) = signature.r := by
    rw [compact, List.take_left' (Octets.length_ofNat _ _),
      Octets.toNat_ofNat_of_lt (rBound.trans width)]
  have second : Octets.toNat (signature.compact.drop 32) = signature.s := by
    rw [compact, List.drop_left' (Octets.length_ofNat _ _),
      Octets.toNat_ofNat_of_lt (sBound.trans width)]
  have both : inScalarRange signature.r = true ∧ inScalarRange signature.s = true :=
    Bool.and_eq_true_iff.mp inRange
  rw [ofCompact, require_bind, if_pos (by simp [compact]), first, second,
    ofNumbers, require_bind, if_pos both]
  rfl

end Signature

namespace SignedMessage

namespace Claim

theorem ofHeader_header (claim : Claim) (id : RecoveryId) :
    ofHeader (claim.header id) = .ok (claim, id) := by
  rcases id with ⟨odd, reduced⟩
  cases claim <;> cases odd <;> cases reduced <;> rfl

/-- The schemes of keys can be claimed. -/
theorem exists_ofScheme (key : PrivateKey) {scheme : Scheme}
    (takesKey : scheme.takesKey = true) :
    ∃ claim,
      ofScheme key scheme = .ok claim ∧
        (claim.compressed = false ↔ scheme = .p2pkh ∧ key.compressed = false) := by
  cases scheme with
  | p2pkh =>
      refine ⟨ofCompression key.compressed, rfl, ?_⟩
      cases key.compressed <;> simp [ofCompression, compressed]
  | p2wpkhInP2sh =>
      exact ⟨nestedWitness, rfl, by simp [compressed]⟩
  | p2wpkh =>
      exact ⟨Claim.witness, rfl, by simp [compressed]⟩
  | p2sh =>
      cases takesKey
  | p2wsh =>
      cases takesKey
  | p2wshInP2sh =>
      cases takesKey

end Claim

/-- The text is a signature, or a signature behind a label and a colon. -/
def IsLabelled (text signature : String) : Prop :=
  text = signature ∨ ∃ label, text = label ++ ":" ++ signature

theorem withoutLabel_encode {text : String} {octets : Octets}
    (labelled : IsLabelled text (Base64.encode octets)) :
    withoutLabel text = Base64.encode octets := by
  have solid := Base64.solid_encode octets
  have noColon := Base64.colon_not_mem_encode octets
  rcases labelled with rfl | ⟨label, rfl⟩
  · rw [withoutLabel, Text.trimBlanks_of_solid solid,
      Text.splitLast?_eq_none noColon]
    exact String.ofList_toList
  · have characters :
        (label ++ ":" ++ Base64.encode octets).toList =
          label.toList ++ ':' :: (Base64.encode octets).toList := by
      rw [String.toList_append, String.toList_append, List.append_assoc]
      rfl
    have behind : Text.Solid (':' :: (Base64.encode octets).toList) :=
      List.forall_mem_cons.mpr ⟨by decide, solid⟩
    rw [withoutLabel, characters,
      Text.trimBlanks_append _ behind (List.cons_ne_nil _ _),
      Text.splitLast?_append _ noColon]
    exact String.ofList_toList

/-- The text of a signature leads back to the point of the signer, in the form
that is claimed. -/
theorem recover_encode {key : PrivateKey} {message : Octets} {nonce : Scalar}
    {numbers : Signature} {text : String}
    (made : Ecdsa.MadeWith key (digest message) nonce numbers) (claim : Claim)
    (labelled : IsLabelled text (encode claim numbers)) :
    recover text message = .ok ⟨key.point, claim.compressed⟩ := by
  obtain ⟨id, stored, -⟩ := made.names
  -- The id is not among what is read back; the header has it.
  have recovered :
      Ecdsa.recover id ⟨numbers.r, numbers.s, none⟩ (digest message) =
        .ok ⟨key.point, true⟩ :=
    made.recover_eq_ok stored
  rw [encode, stored, Option.getD_some] at labelled
  rw [recover, withoutLabel_encode labelled, Base64.decode?_encode, demand_some,
    ok_bind, require_bind, if_pos (by simp [Signature.compact])]
  simp only [List.headD_cons, List.drop_succ_cons, List.drop_zero]
  rw [Claim.ofHeader_header, ok_bind]
  dsimp only
  rw [Signature.ofCompact_compact made.inRange, ok_bind, recovered]
  rfl

/-- The address of a key is tried, in whichever form the key was recovered. -/
theorem mem_candidates {coin : Coin} {network : Network} {scheme : Scheme}
    {entry : TableEntry} (found : tableEntry coin network scheme = .ok entry)
    (takesKey : scheme.takesKey = true) {key : PublicKey} {address : String}
    (own : addressOfKey coin network scheme key = .ok address)
    (compressed : Bool) :
    (scheme, address) ∈
      candidates coin network (key.withCompression compressed) := by
  -- Witness schemes are tried with the short form only, whatever the key asks for.
  have short : scheme ≠ .p2pkh →
      addressOfKey coin network scheme (key.withCompression true) = .ok address := by
    intro witness
    rw [addressOfKey_withCompression found witness, own]
  rw [candidates, List.mem_filterMap]
  cases scheme with
  | p2pkh =>
      refine ⟨(.p2pkh, key), ?_, by rw [own]; rfl⟩
      rcases key with ⟨point, form⟩
      cases form with
      | false =>
          exact List.mem_cons_self ..
      | true =>
          exact List.mem_cons_of_mem _ (List.mem_cons_self ..)
  | p2wpkhInP2sh =>
      refine ⟨(.p2wpkhInP2sh, key.withCompression true), ?_, ?_⟩
      · simp [PublicKey.withCompression]
      · rw [short (by decide)]
        rfl
  | p2wpkh =>
      refine ⟨(.p2wpkh, key.withCompression true), ?_, ?_⟩
      · simp [PublicKey.withCompression]
      · rw [short (by decide)]
        rfl
  | p2sh =>
      cases takesKey
  | p2wsh =>
      cases takesKey
  | p2wshInP2sh =>
      cases takesKey

theorem isCaseFree_iff (style : AddressStyle) (scheme : Scheme) :
    isCaseFree style scheme = true ↔
      style = .cashAddr ∨ style = .generic ∧ scheme = .p2wpkh := by
  cases style <;> simp [isCaseFree]

theorem foldCase_of_plain {text : String} (plain : Text.Plain text.toList) :
    foldCase text = text := by
  unfold foldCase
  split
  · rfl
  · exact Text.lowercase_of_not_hasUppercase (Text.hasUppercase_of_plain plain)

theorem isSameAddress_self {style : AddressStyle} {scheme : Scheme}
    {address : String}
    (plain : isCaseFree style scheme = true → Text.Plain address.toList) :
    isSameAddress style scheme address address = true := by
  unfold isSameAddress
  split
  · next caseFree =>
      dsimp only
      rw [foldCase_of_plain (plain caseFree), beq_self_eq_true, Bool.true_or]
  · exact beq_self_eq_true address

/-- Whatever the table holds for a key scheme, the key has an address there, and
it is accepted with every text that the point of the key is recovered from. -/
theorem exists_address_verify {coin : Coin} {network : Network} {scheme : Scheme}
    {entry : TableEntry} (found : tableEntry coin network scheme = .ok entry)
    (takesKey : scheme.takesKey = true) (key : PublicKey) :
    ∃ address,
      addressOfKey coin network scheme key = .ok address ∧
        ∀ text message compressed,
          recover text message = .ok ⟨key.point, compressed⟩ →
            verify coin network address text message = .ok () := by
  obtain ⟨address, own, solid, plain⟩ := exists_address found takesKey key
  refine ⟨address, own, ?_⟩
  intro text message compressed recovered
  have same : isSameAddress coin.style scheme address address = true :=
    isSameAddress_self fun caseFree =>
      plain ((isCaseFree_iff coin.style scheme).mp caseFree)
  have owns :
      ownsAddress coin network (key.withCompression compressed) address = true :=
    List.any_eq_true.mpr
      ⟨_, mem_candidates found takesKey own compressed, same⟩
  change recover text message = .ok (key.withCompression compressed) at recovered
  rw [verify, recovered, ok_bind, Text.trim_of_solid solid, require,
    if_pos owns]

theorem sign_eq {key : PrivateKey} {message : Octets} {scheme : Scheme}
    {draws rest : Draws} {numbers : Signature} {claim : Claim}
    (claimed : Claim.ofScheme key scheme = .ok claim)
    (signed : Ecdsa.sign? key (digest message) draws = some (numbers, rest)) :
    sign key message scheme draws = .ok (some (encode claim numbers, rest)) := by
  rw [sign, claimed, ok_bind, signWith?, signed]
  rfl

theorem tableEntry_bitcoin (network : Network) :
    ∃ entry, tableEntry .bitcoin network .p2pkh = .ok entry := by
  cases network <;> exact ⟨_, rfl⟩

/-- A message is signed as soon as the source hands out a nonce that leads to a
signature, and then it verifies for every address of the signer: whatever the
table holds for a key scheme, whatever the source handed out and whatever label
stands in front. The key comes back in the long form exactly if it is in that
form itself and its own digest was the scheme. A text verifies on each network
of Bitcoin. -/
theorem verify_of_sign (key : PrivateKey) :
    (∀ (message : Octets) (scheme : Scheme) (draws : Draws),
      scheme ∈ [Scheme.p2pkh, .p2wpkhInP2sh, .p2wpkh] →
      (∃ block ∈ draws, Ecdsa.IsUsable key (digest message) block) →
        ∃ signature rest,
          sign key message scheme draws = .ok (some (signature, rest)) ∧
            ∀ text, IsLabelled text signature →
              (∃ recovered,
                recover text message = .ok recovered ∧
                  recovered.point = Point.mulGenerator key.secret.value ∧
                  (recovered.compressed = false ↔
                    scheme = .p2pkh ∧ key.compressed = false)) ∧
                ∀ coin network entry,
                  tableEntry coin network scheme = .ok entry →
                    ∃ address,
                      addressOfKey coin network scheme key.publicKey =
                          .ok address ∧
                        verify coin network address text message = .ok ()) ∧
      ∀ (message : String) (draws : Draws),
        (∃ block ∈ draws,
          Ecdsa.IsUsable key (digest (Octets.ofText message)) block) →
          ∃ signature rest,
            signText? key message draws = some (signature, rest) ∧
              ∀ text, IsLabelled text signature →
                ∀ network,
                  ∃ address,
                    addressOfKey .bitcoin network .p2pkh key.publicKey =
                        .ok address ∧
                      verifyText address text message = true := by
  constructor
  · intro message scheme draws keyScheme usable
    have takesKey : scheme.takesKey = true := by
      simp only [List.mem_cons, List.not_mem_nil, or_false] at keyScheme
      rcases keyScheme with rfl | rfl | rfl <;> rfl
    obtain ⟨numbers, rest, nonce, signed, made⟩ :=
      Ecdsa.exists_madeWith_of_isUsable usable
    obtain ⟨claim, claimed, form⟩ := Claim.exists_ofScheme key takesKey
    refine ⟨encode claim numbers, rest, sign_eq claimed signed, ?_⟩
    intro text labelled
    have recovered := recover_encode made claim labelled
    refine ⟨⟨_, recovered, key.point_eq, form⟩, ?_⟩
    intro coin network entry found
    obtain ⟨address, own, accepts⟩ :=
      exists_address_verify found takesKey key.publicKey
    exact ⟨address, own, accepts text message claim.compressed recovered⟩
  · intro message draws usable
    obtain ⟨numbers, rest, nonce, signed, made⟩ :=
      Ecdsa.exists_madeWith_of_isUsable usable
    let claim := Claim.ofCompression key.compressed
    refine ⟨encode claim numbers, rest, ?_, ?_⟩
    · rw [signText?, signWith?, signed]
      rfl
    · intro text labelled network
      have recovered := recover_encode made claim labelled
      obtain ⟨entry, found⟩ := tableEntry_bitcoin network
      obtain ⟨address, own, accepts⟩ :=
        exists_address_verify found rfl key.publicKey
      refine ⟨address, own, ?_⟩
      rw [verifyText, List.any_eq_true]
      refine ⟨network, by cases network <;> decide, ?_⟩
      rw [accepts text _ claim.compressed recovered]
      rfl

/-- A key in the long form whose secret is the digest divided by the abscissa of
the double of the generator. With a nonce of two its numbers are refused when
they are verified alone; the signed text verifies, for the key and for its
address, under a label too. -/
theorem verify_of_sign_shared_abscissa :
    let secret : Scalar :=
      ⟨53186030059688937002221256503219618535568229620212440734677126374352695770910,
        by decide, by decide⟩
    let key := PrivateKey.ofScalar secret false
    let text := "vires in numeris"
    let message := Octets.ofText text
    let draws := [Block.ofNat 32 2]
    ∃ numbers,
      Ecdsa.sign? key (digest message) draws = some (numbers, []) ∧
        Ecdsa.verify key.publicKey (digest message) numbers = false ∧
        (∃ signature rest recovered address,
          sign key message .p2pkh draws = .ok (some (signature, rest)) ∧
            recover ("p2pkh" ++ ":" ++ signature) message = .ok recovered ∧
            recovered.compressed = false ∧
            addressOfKey .dogecoin .main .p2pkh key.publicKey = .ok address ∧
            verify .dogecoin .main address ("p2pkh" ++ ":" ++ signature)
                message =
              .ok ()) ∧
        ∃ signature rest address,
          signText? key text draws = some (signature, rest) ∧
            addressOfKey .bitcoin .test .p2pkh key.publicKey = .ok address ∧
            verifyText address signature text = true := by
  intro secret key text message draws
  let numbers : Signature :=
    ⟨89565891926547004231252920425935692360644145829622209833684329913297188986597,
      103432949896126295001001479745700905944341602502749375653188319864861933804562,
      some ⟨false, false⟩⟩
  have signed : Ecdsa.sign? key (digest message) draws = some (numbers, []) := by
    decide +kernel
  have shared :
      Ecdsa.digestScalar (digest message) ≡ numbers.r * key.secret.value
        [MOD groupOrder] := by
    decide +kernel
  have refused : Ecdsa.verify key.publicKey (digest message) numbers = false := by
    obtain ⟨nonce, made⟩ := Ecdsa.exists_nonce_of_sign? signed
    rw [← Bool.not_eq_true, made.verify_eq_true_iff, not_not]
    exact shared
  have usable :
      ∃ block ∈ draws, Ecdsa.IsUsable key (digest message) block := by
    rw [← Ecdsa.sign?_isSome_iff, signed]
    rfl
  have labelled (signature : String) :
      IsLabelled ("p2pkh" ++ ":" ++ signature) signature :=
    Or.inr ⟨"p2pkh", rfl⟩
  obtain ⟨forMessage, forText⟩ := verify_of_sign key
  obtain ⟨signature, rest, made, accepted⟩ :=
    forMessage message .p2pkh draws (by decide) usable
  obtain ⟨⟨recovered, read, -, long⟩, owned⟩ := accepted _ (labelled signature)
  obtain ⟨address, own, verifies⟩ := owned .dogecoin .main _ rfl
  obtain ⟨textSignature, textRest, textMade, textAccepted⟩ :=
    forText text draws usable
  obtain ⟨textAddress, textOwn, textVerifies⟩ :=
    textAccepted textSignature (Or.inl rfl) .test
  exact
    ⟨numbers, signed, refused,
      ⟨signature, rest, recovered, address, made, read, long.mpr ⟨rfl, rfl⟩, own,
        verifies⟩,
      textSignature, textRest, textAddress, textMade, textOwn, textVerifies⟩

end SignedMessage

end WalletKeys
