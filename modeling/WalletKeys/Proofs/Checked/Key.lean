import WalletKeys.Hd.Text
import WalletKeys.Key.Wif
import WalletKeys.Proofs.Checked.Codec
import WalletKeys.Proofs.Checked.Curve
import WalletKeys.Proofs.Key.Wif

/-!
# Paths and keys are read at places that are there

A step of a path loses the octet of its mark, an extended key is read at fixed places
once its length is known, and an exported secret by one of its two lengths.
-/

namespace WalletKeys

open Secp256k1

namespace ChildNumber

/-- A mark is cut off by its one octet. -/
def parse? (segment : List Char) : Checked DerivationError ChildNumber := do
  if segment.getLast?.any isMark then
    let count ← Modular.difference? (Text.octetCount segment) 1
    let parts ← Text.cut? count segment
    ofDigits parts.1 true
  else ofDigits segment false

theorem utf8Size_of_isMark {character : Char} (mark : isMark character = true) :
    character.utf8Size = 1 := by
  simp only [isMark, Bool.or_eq_true, beq_iff_eq] at mark
  obtain (rfl | rfl) | rfl := mark <;> rfl

theorem parse?_eq (segment : List Char) : parse? segment = liftM (parse segment) := by
  unfold parse? parse
  cases ends : segment.getLast? with
  | none =>
      rfl
  | some last =>
      obtain ⟨front, rfl⟩ := List.getLast?_eq_some_iff.mp ends
      rw [Option.any_some]
      cases mark : isMark last with
      | true =>
          have single := utf8Size_of_isMark mark
          have counted : 1 ≤ Text.octetCount (front ++ [last]) := by
            rw [Text.octetCount_concat single]
            exact Nat.succ_pos _
          rw [if_pos rfl, Checked.bind_of_eq_some (Modular.difference?_eq counted),
            Checked.bind_of_eq_some (Text.cut?_concat single front)]
          change _ = liftM (ofDigits (front ++ [last]).dropLast true)
          rw [List.dropLast_concat]
      | false =>
          rfl

end ChildNumber

def Path.parse? (text : String) : Checked DerivationError Path :=
  match Text.splitAll '/' (Text.trimBlanks text.toList) with
  | [] => throw .badPath
  | top :: segments =>
      if top = ['m'] ∨ top = ['M'] then segments.mapM ChildNumber.parse?
      else throw .badPath

theorem Path.parse?_eq (text : String) : Path.parse? text = liftM (Path.parse text) := by
  unfold Path.parse? Path.parse
  cases Text.splitAll '/' (Text.trimBlanks text.toList) with
  | nil =>
      rfl
  | cons top segments =>
      dsimp only
      split
      · rw [funext ChildNumber.parse?_eq, Checked.mapM_liftM]
      · rfl

namespace ExtendedKey

def readPublic? (keyData : Octets) : Checked DerivationError PublicKey := do
  let lead ← (keyData[0]? : Option UInt8)
  require (lead = 0x02 ∨ lead = 0x03) DerivationError.badKeyData
  let point ← (Point.decode? keyData).adapt DerivationError.curve
  (PublicKey.ofPoint point true).mapError fun _ => DerivationError.badKeyData

def readPrivate? (keyData : Octets) : Checked DerivationError PrivateKey := do
  let lead ← (keyData[0]? : Option UInt8)
  require (lead = 0x00) DerivationError.badKeyData
  let digits ← slice? 1 keyData.length keyData
  let secret ← demand (Scalar.ofNat? (Octets.toNat digits)) DerivationError.badKeyData
  PrivateKey.ofScalar? secret true

/-- The word in a part of the payload, octet by octet. -/
def wordIn? (start stop : ℕ) (payload : Octets) : Option UInt32 := do
  let part ← slice? start stop payload
  let octets ← firstFour? part
  return UInt32.ofNat (Octets.toNat octets)

def ofPayload? (resolve : UInt32 → Option (KeyVersions × KeyForm)) (payload : Octets) :
    Checked DerivationError ExtendedKey := do
  let word ← wordIn? 0 4 payload
  let (versions, form) ← demand (resolve word) (DerivationError.badVersion word)
  let depth ← (payload[4]? : Option UInt8)
  let parentFingerprint ← wordIn? 5 9 payload
  let childNumber ← wordIn? 9 13 payload
  let chain ← slice? 13 45 payload
  let chainCode ← Block.ofOctets? 32 chain
  require (depth ≠ 0 ∨ (parentFingerprint = 0 ∧ childNumber = 0))
    DerivationError.invalidRootFields
  let keyData ← slice? 45 78 payload
  match form with
  | .publicForm => do
      let key ← readPublic? keyData
      return publicNode ⟨versions, depth, parentFingerprint, childNumber, chainCode, key⟩
  | .privateForm => do
      let key ← readPrivate? keyData
      return privateNode ⟨versions, depth, parentFingerprint, childNumber, chainCode, key⟩

def decode? (resolve : UInt32 → Option (KeyVersions × KeyForm)) (text : String) :
    Checked DerivationError ExtendedKey := do
  let payload ← (Base58.decodeChecked? text).adapt DerivationError.codec
  require (payload.length = nodeSize) DerivationError.invalidPayloadLength
  ofPayload? resolve payload

def parse? (text : String) : Checked DerivationError ExtendedKey :=
  decode? findVersions? text

def parseWith? (versions : KeyVersions) (text : String) :
    Checked DerivationError ExtendedKey :=
  decode? (fun word => (versions.form? word).map fun form => (versions, form)) text

theorem readPublic?_eq {keyData : Octets} (nonempty : 0 < keyData.length) :
    readPublic? keyData = liftM (readPublic keyData) := by
  cases keyData with
  | nil =>
      cases nonempty
  | cons lead rest =>
      simp only [readPublic?, readPublic, List.getElem?_cons_zero, Checked.liftM_some,
        pure_bind, List.head?_cons, Option.some_inj, Point.decode?_eq,
        Checked.adapt_liftM, Checked.liftM_bind]

theorem readPrivate?_eq {keyData : Octets} (nonempty : 0 < keyData.length) :
    readPrivate? keyData = liftM (readPrivate keyData) := by
  cases keyData with
  | nil =>
      cases nonempty
  | cons lead rest =>
      have digits : slice? 1 (lead :: rest).length (lead :: rest) = some rest :=
        slice?_back nonempty
      simp only [readPrivate?, readPrivate, List.getElem?_cons_zero, Checked.liftM_some,
        pure_bind, List.head?_cons, Option.some_inj, digits, PrivateKey.ofScalar?_eq,
        Checked.liftM_bind]
      rfl

theorem wordIn?_eq {start : ℕ} {payload : Octets}
    (inside : start + 4 ≤ payload.length) :
    wordIn? start (start + 4) payload = some (wordAt start payload) := by
  have length : ((payload.drop start).take 4).length = 4 := by
    rw [List.length_take, List.length_drop]
    omega
  rw [wordIn?, slice?_middle inside, Option.bind_eq_bind, Option.bind_some,
    firstFour?_eq length.ge, Option.bind_some, List.take_of_length_le length.le]
  rfl

theorem ofPayload?_eq (resolve : UInt32 → Option (KeyVersions × KeyForm))
    {payload : Octets} (h : payload.length = nodeSize) :
    ofPayload? resolve payload = liftM (ofPayload resolve payload h) := by
  have size : payload.length = 78 :=
    h
  have word : wordIn? 0 4 payload = some (wordAt 0 payload) :=
    wordIn?_eq (by omega)
  have parent : wordIn? 5 9 payload = some (wordAt 5 payload) :=
    wordIn?_eq (by omega)
  have number : wordIn? 9 13 payload = some (wordAt 9 payload) :=
    wordIn?_eq (by omega)
  have depth : payload[4]? = some (payload.getD 4 0) := by
    rw [List.getD_eq_getElem?_getD, List.getElem?_eq_getElem (by omega)]
    rfl
  have enough : 13 + 32 ≤ payload.length := by
    omega
  have chain : slice? 13 45 payload = some ((payload.drop 13).take 32) :=
    slice?_middle enough
  have keyData : slice? 45 78 payload = some (payload.drop 45) := by
    rw [← size]
    exact slice?_back (by omega)
  have keyLength : 0 < (payload.drop 45).length := by
    rw [List.length_drop]
    omega
  rw [ofPayload?, Checked.bind_of_eq_some word]
  refine Checked.bind_eq_liftM fun ⟨versions, form⟩ _ => ?_
  simp only [depth, parent, number, chain, keyData, Checked.liftM_some, pure_bind,
    Block.ofOctets?_eq (show ((payload.drop 13).take 32).length = 32 by simp [size])]
  refine Checked.bind_eq_liftM fun _ _ => ?_
  cases form with
  | publicForm =>
      dsimp only
      rw [readPublic?_eq keyLength]
      exact Checked.bind_eq_liftM fun key _ => rfl
  | privateForm =>
      dsimp only
      rw [readPrivate?_eq keyLength]
      exact Checked.bind_eq_liftM fun key _ => rfl

-- A shorter payload lacks the parts: only the look at its length keeps it out.
example : (ofPayload? findVersions? []).run = none := by
  rfl

theorem decode?_eq (resolve : UInt32 → Option (KeyVersions × KeyForm)) (text : String) :
    decode? resolve text = liftM (decode resolve text) := by
  rw [decode?, Base58.decodeChecked?_eq, Checked.adapt_liftM]
  refine Checked.bind_eq_liftM fun payload _ => ?_
  by_cases size : payload.length = nodeSize
  · rw [dif_pos size, ← ofPayload?_eq resolve size, require, if_pos size]
    rfl
  · rw [dif_neg size, require, if_neg size]
    rfl

end ExtendedKey

namespace PrivateKey

def ofOctets? (octets : Octets) : Checked WalletError PrivateKey := do
  require (octets.length = 32) (WalletError.invalidKeyLength octets.length)
  let secret ← demand (Scalar.ofNat? (Octets.toNat octets)) WalletError.secretOutOfRange
  ofScalar? secret true

/-- The last octet is looked at behind the longer of the two lengths only. -/
def wifForm? (payload : Octets) : Checked WalletError Bool := do
  if payload.length = 33 then return false
  else if payload.length = 34 then
    let last ← (payload[33]? : Option UInt8)
    if last = 0x01 then return true
    else throw (.invalidKeyLength payload.length)
  else throw (.invalidKeyLength payload.length)

def ofWif? (text : String) (coin : Coin) (network : Network) :
    Checked WalletError PrivateKey := do
  let expected ← wifVersion coin network
  let payload ← (Base58.decodeChecked? text).adapt WalletError.codec
  let compressed ← wifForm? payload
  let version ← (payload[0]? : Option UInt8)
  require (version = expected) (WalletError.wifMismatch version)
  let digits ← slice? 1 33 payload
  let key ← ofOctets? digits
  return key.withCompression compressed

theorem ofOctets?_eq (octets : Octets) : ofOctets? octets = liftM (ofOctets octets) := by
  refine Checked.bind_eq_liftM fun _ _ => ?_
  unfold PrivateKey.ofNat
  cases Scalar.ofNat? (Octets.toNat octets) with
  | none =>
      rfl
  | some secret =>
      rw [demand_some, Checked.liftM_ok, pure_bind, ofScalar?_eq]
      rfl

theorem wifForm?_eq (payload : Octets) :
    wifForm? payload = liftM (wifForm payload) := by
  unfold wifForm? wifForm
  by_cases short : payload.length = 33
  · rw [if_pos short, if_pos short]
    rfl
  · by_cases long : payload.length = 34
    · have last : payload[33]? = payload.getLast? := by
        rw [List.getLast?_eq_getElem?, long]
      rw [if_neg short, if_neg short, if_pos long, last]
      cases ends : payload.getLast? with
      | none =>
          rw [List.getLast?_eq_none_iff.mp ends] at long
          cases long
      | some octet =>
          rw [Checked.liftM_some, pure_bind]
          by_cases one : octet = 0x01
          · rw [if_pos one, if_pos ⟨long, congrArg some one⟩]
            rfl
          · rw [if_neg one, if_neg fun both => one (Option.some.inj both.2)]
            rfl
    · rw [if_neg short, if_neg short, if_neg long, if_neg fun both => long both.1]
      rfl

theorem ofWif?_eq (text : String) (coin : Coin) (network : Network) :
    ofWif? text coin network = liftM (ofWif text coin network) := by
  refine Checked.bind_eq_liftM fun expected _ => ?_
  rw [Base58.decodeChecked?_eq, Checked.adapt_liftM]
  refine Checked.bind_eq_liftM fun payload _ => ?_
  rw [wifForm?_eq]
  refine Checked.bind_eq_liftM fun compressed known => ?_
  -- Either length has room for the octet of the network and the secret.
  obtain ⟨version, body, length, rfl⟩ := wifForm_eq_ok_iff.mp known
  let payload := version :: (body ++ if compressed then [0x01] else [])
  have enough : 1 + 32 ≤ payload.length := by
    rw [List.length_cons, List.length_append, length]
    omega
  have digits : slice? 1 33 payload = some ((payload.drop 1).take 32) :=
    slice?_middle enough
  rw [Checked.bind_of_eq_some (List.getElem?_cons_zero ..)]
  refine Checked.bind_eq_liftM fun _ _ => ?_
  rw [Checked.bind_of_eq_some digits, ofOctets?_eq]
  exact Checked.bind_eq_liftM fun key _ => rfl

end PrivateKey

end WalletKeys
