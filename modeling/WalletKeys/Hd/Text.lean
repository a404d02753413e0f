import WalletKeys.Codec.Base58
import WalletKeys.Hd.Key

/-!
# Text of extended keys

The fields of a node in 78 octets, in checked Base58: the version word of its form, the depth, the
fingerprint of the parent, the child number, the chain code and the key, which is a point in the
short form or a secret behind a zero octet.
-/

namespace WalletKeys

open Secp256k1

def nodeSize : Nat := 78

namespace TreeNode

/-- The octets of a node with a given version word and key. -/
def payload {kind : Type} (node : TreeNode kind) (word : UInt32) (keyData : Octets) : Octets :=
  Octets.ofNat 4 word.toNat ++ [node.depth] ++ Octets.ofNat 4 node.parentFingerprint.toNat ++
    Octets.ofNat 4 node.childNumber.toNat ++ node.chainCode.octets ++ keyData

end TreeNode

def PrivateNode.text (node : PrivateNode) : String :=
  Base58.encodeChecked (node.payload node.versions.privateWord (0x00 :: node.key.octets))

def PublicNode.text (node : PublicNode) : String :=
  Base58.encodeChecked (node.payload node.versions.publicWord node.key.shortOctets)

namespace ExtendedKey

def text : ExtendedKey → String
  | privateNode node => node.text
  | publicNode node => node.text

/-- The public key that key data write: a point in the short form. -/
def readPublic (keyData : Octets) : Except DerivationError PublicKey := do
  require (keyData.head? = some 0x02 ∨ keyData.head? = some 0x03) .badKeyData
  let point ← (Point.decode keyData).mapError DerivationError.curve
  (PublicKey.ofPoint point true).mapError fun _ => .badKeyData

/-- The private key that key data write: a zero octet and a secret in range. -/
def readPrivate (keyData : Octets) : Except DerivationError PrivateKey := do
  require (keyData.head? = some 0x00) .badKeyData
  let secret ← demand (Scalar.ofNat? (Octets.toNat (keyData.drop 1))) .badKeyData
  return PrivateKey.ofScalar secret true

def wordAt (place : Nat) (payload : Octets) : UInt32 :=
  UInt32.ofNat (Octets.toNat ((payload.drop place).take 4))

/-- The node with the place that a payload writes and a given key. -/
def readNode {kind : Type} (versions : KeyVersions) (payload : Octets)
    (h : payload.length = nodeSize) (key : kind) : TreeNode kind where
  versions := versions
  depth := payload.getD 4 0
  parentFingerprint := wordAt 5 payload
  childNumber := wordAt 9 payload
  chainCode := ⟨(payload.drop 13).take 32, by simp [h, nodeSize]⟩
  key := key

/-- Reads the fields of a node. Version words are told apart by `resolve`, and a node at the top of
a tree has no parent and no number. -/
def ofPayload (resolve : UInt32 → Option (KeyVersions × KeyForm)) (payload : Octets)
    (h : payload.length = nodeSize) : Except DerivationError ExtendedKey := do
  let (versions, form) ← demand (resolve (wordAt 0 payload)) (.badVersion (wordAt 0 payload))
  let node := readNode versions payload h ()
  require (node.depth ≠ 0 ∨ (node.parentFingerprint = 0 ∧ node.childNumber = 0)) .invalidRootFields
  match form with
  | .publicForm => do
      let key ← readPublic (payload.drop 45)
      return publicNode (readNode versions payload h key)
  | .privateForm => do
      let key ← readPrivate (payload.drop 45)
      return privateNode (readNode versions payload h key)

/-- Reads the text of a node whose version words are told apart by `resolve`. -/
def decode (resolve : UInt32 → Option (KeyVersions × KeyForm)) (text : String) :
    Except DerivationError ExtendedKey := do
  let payload ← (Base58.decodeChecked text).mapError DerivationError.codec
  if h : payload.length = nodeSize then ofPayload resolve payload h
  else .error .invalidPayloadLength

/-- Reads the text of a node under any version words of the table. -/
def parse (text : String) : Except DerivationError ExtendedKey :=
  decode findVersions? text

/-- Reads the text of a node under the given version words. -/
def parseWith (versions : KeyVersions) (text : String) : Except DerivationError ExtendedKey :=
  decode (fun word => (versions.form? word).map fun form => (versions, form)) text

def expectPrivate : ExtendedKey → Except DerivationError PrivateNode
  | privateNode node => .ok node
  | publicNode node => .error (.badVersion node.versions.publicWord)

def expectPublic : ExtendedKey → Except DerivationError PublicNode
  | publicNode node => .ok node
  | privateNode node => .error (.badVersion node.versions.privateWord)

end ExtendedKey

end WalletKeys
