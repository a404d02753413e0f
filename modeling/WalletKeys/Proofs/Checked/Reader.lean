import WalletKeys.Proofs.Checked.Key
import WalletKeys.SignedMessage

/-!
# Readers that do not break off

A signed message is read like the rest, and its recovery id is what the header has more
than the base of its claim. So every reader of this library goes through its text or
octets to the end, whatever it is given: no part that it takes is missing, and no
difference is below zero (`readers_complete`).
-/

namespace WalletKeys

def Signature.ofCompact? (octets : Octets) : Checked WalletError Signature := do
  require (octets.length = 64) (WalletError.invalidSignatureLength octets.length)
  let r ← slice? 0 32 octets
  let s ← slice? 32 octets.length octets
  ofNumbers (Octets.toNat r) (Octets.toNat s)

theorem Signature.ofCompact?_eq (octets : Octets) :
    ofCompact? octets = liftM (ofCompact octets) := by
  refine Checked.bind_eq_liftM fun _ whole => ?_
  have length := require_eq_ok_iff.mp whole
  rw [Checked.bind_of_eq_some (slice?_front (by omega)),
    Checked.bind_of_eq_some (slice?_back (by omega))]

namespace SignedMessage

namespace Claim

/-- The header is one of the four from the base of the claim on. -/
def covers (claim : Claim) (header : UInt8) : Bool :=
  decide (claim.base ≤ header) && decide (header ≤ claim.base + 3)

/-- The claim of a header and the number of the recovery id. -/
def ofHeader? (header : UInt8) : Checked WalletError (Claim × UInt8) := do
  let claim ←
    demand (all.find? fun claim => claim.covers header) (WalletError.invalidHeader header)
  let number ← (wordDifference? header claim.base : Option UInt8)
  return (claim, number)

theorem exists_ofNat?_iff {number : ℕ} :
    (∃ id, RecoveryId.ofNat? number = some id) ↔ number < 4 := by
  rw [← Option.isSome_iff_exists, RecoveryId.ofNat?]
  split
  · next few =>
      exact iff_of_true rfl few
  · next many =>
      exact iff_of_false Bool.false_ne_true many

theorem covers_iff {claim : Claim} {header : UInt8} :
    claim.covers header = true ↔
      claim.base ≤ header ∧
        ∃ id, RecoveryId.ofNat? (header - claim.base).toNat = some id := by
  have top : (claim.base + 3).toNat = claim.base.toNat + 3 := by
    cases claim <;> rfl
  rw [covers, Bool.and_eq_true, decide_eq_true_eq, decide_eq_true_eq,
    exists_ofNat?_iff]
  refine and_congr_right fun below => ?_
  rw [UInt8.toNat_sub_of_le _ _ below, UInt8.le_iff_toNat_le, top]
  rw [UInt8.le_iff_toNat_le] at below
  omega

/-- The claim that a header is read as is the first that covers it. -/
theorem findSome?_eq_find?_bind {header : UInt8} (claims : List Claim) :
    (claims.findSome? fun claim =>
        if claim.base ≤ header then
          (RecoveryId.ofNat? (header - claim.base).toNat).map fun id => (claim, id)
        else none) =
      (claims.find? fun claim => claim.covers header).bind fun claim =>
        (RecoveryId.ofNat? (header - claim.base).toNat).map fun id => (claim, id) := by
  induction claims with
  | nil =>
      rfl
  | cons claim rest inductionHypothesis =>
      rw [List.findSome?_cons, inductionHypothesis, List.find?_cons]
      by_cases covered : claim.covers header = true
      · obtain ⟨below, id, made⟩ := covers_iff.mp covered
        simp only [if_pos below, covered, made, Option.map_some, Option.bind_some]
      · rw [Bool.eq_false_iff.mpr covered]
        by_cases below : claim.base ≤ header
        · have absent : RecoveryId.ofNat? (header - claim.base).toNat = none := by
            rw [Option.eq_none_iff_forall_ne_some]
            exact fun id made => covered (covers_iff.mpr ⟨below, id, made⟩)
          rw [if_pos below, absent]
          rfl
        · rw [if_neg below]

theorem ofHeader_eq (header : UInt8) :
    ofHeader header =
      demand (all.find? fun claim => claim.covers header) (.invalidHeader header) >>=
        fun claim =>
          demand
            ((RecoveryId.ofNat? (header - claim.base).toNat).map fun id => (claim, id))
            (.invalidHeader header) := by
  rw [ofHeader, findSome?_eq_find?_bind]
  cases all.find? fun claim => claim.covers header <;> rfl

end Claim

def recover? (signature : String) (message : Octets) : Checked WalletError PublicKey := do
  let octets ← demand (Base64.decode? (withoutLabel signature)) WalletError.invalidBase64
  require (octets.length = 65) (WalletError.invalidSignatureLength octets.length)
  let header ← (octets[0]? : Option UInt8)
  let (claim, number) ← Claim.ofHeader? header
  let rest ← slice? 1 octets.length octets
  let numbers ← Signature.ofCompact? rest
  let key ← Ecdsa.recoverNumbered? number numbers (digest message)
  return key.withCompression claim.compressed

theorem recover?_eq (signature : String) (message : Octets) :
    recover? signature message = liftM (recover signature message) := by
  refine Checked.bind_eq_liftM fun octets _ => ?_
  refine Checked.bind_eq_liftM fun _ whole => ?_
  have length := require_eq_ok_iff.mp whole
  cases octets with
  | nil =>
      cases length
  | cons header rest =>
      have behind : slice? 1 (header :: rest).length (header :: rest) = some rest :=
        slice?_back (Nat.succ_pos _)
      rw [Checked.bind_of_eq_some (List.getElem?_cons_zero ..), List.headD_cons,
        Claim.ofHeader_eq, Claim.ofHeader?]
      cases found : Claim.all.find? fun claim => claim.covers header with
      | none =>
          rfl
      | some claim =>
          have covered : claim.covers header = true :=
            List.find?_some (p := fun claim : Claim => claim.covers header) found
          obtain ⟨below, id, made⟩ := Claim.covers_iff.mp covered
          simp only [demand_some, Checked.liftM_ok, pure_bind, ok_bind, made,
            Option.map_some, wordDifference?_eq below, Checked.liftM_some, behind,
            Signature.ofCompact?_eq, List.drop_one, List.tail_cons]
          refine Checked.bind_eq_liftM fun numbers _ => ?_
          rw [Ecdsa.recoverNumbered?_eq, Ecdsa.recoverNumbered, made]
          exact Checked.bind_eq_liftM fun key _ => rfl

end SignedMessage

/-- Whatever is given to them, the readers come to the end of it and answer or refuse as
the readers without missing parts do. -/
theorem readers_complete :
    (∀ text,
      (Base58.decodeChecked? text).run = some (Base58.decodeChecked text)) ∧
    (∀ tag address, (Segwit.decode? tag address).run = some (Segwit.decode tag address)) ∧
    (∀ tag address,
      (CashAddr.decode? tag address).run = some (CashAddr.decode tag address)) ∧
    (∀ text, (Path.parse? text).run = some (Path.parse text)) ∧
    (∀ text, (ExtendedKey.parse? text).run = some (ExtendedKey.parse text)) ∧
    (∀ versions text,
      (ExtendedKey.parseWith? versions text).run =
        some (ExtendedKey.parseWith versions text)) ∧
    (∀ text coin network,
      (PrivateKey.ofWif? text coin network).run =
        some (PrivateKey.ofWif text coin network)) ∧
    (∀ octets,
      (Secp256k1.Point.decode? octets).run = some (Secp256k1.Point.decode octets)) ∧
    (∀ octets, (Signature.ofCompact? octets).run = some (Signature.ofCompact octets)) ∧
    (∀ number signature digest,
      (Ecdsa.recoverNumbered? number signature digest).run =
        some (Ecdsa.recoverNumbered number signature digest)) ∧
    ∀ signature message,
      (SignedMessage.recover? signature message).run =
        some (SignedMessage.recover signature message) := by
  refine ⟨?_, ?_, ?_, ?_, ?_, ?_, ?_, ?_, ?_, ?_, ?_⟩
  · intro text
    rw [Base58.decodeChecked?_eq, Checked.run_liftM]
  · intro tag address
    rw [Segwit.decode?_eq, Checked.run_liftM]
  · intro tag address
    rw [CashAddr.decode?_eq, Checked.run_liftM]
  · intro text
    rw [Path.parse?_eq, Checked.run_liftM]
  · intro text
    rw [ExtendedKey.parse?, ExtendedKey.decode?_eq, Checked.run_liftM]
    rfl
  · intro versions text
    rw [ExtendedKey.parseWith?, ExtendedKey.decode?_eq, Checked.run_liftM]
    rfl
  · intro text coin network
    rw [PrivateKey.ofWif?_eq, Checked.run_liftM]
  · intro octets
    rw [Secp256k1.Point.decode?_eq, Checked.run_liftM]
  · intro octets
    rw [Signature.ofCompact?_eq, Checked.run_liftM]
  · intro number signature digest
    rw [Ecdsa.recoverNumbered?_eq, Checked.run_liftM]
  · intro signature message
    rw [SignedMessage.recover?_eq, Checked.run_liftM]

end WalletKeys
