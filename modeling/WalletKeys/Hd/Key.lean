import WalletKeys.Coin.Table
import WalletKeys.Digest
import WalletKeys.Hd.Path
import WalletKeys.Key.Private

/-!
# Extended keys and their children

An extended key is a key with a chain code and its place in a tree. Children follow from a keyed
digest of the parent's data: the left half is added to the key, the right half is the chain code of
the child. Public parents have the children that are not hardened.

The two digests are parameters of the derivation steps, since the laws of derivation do not depend
on what they compute.
-/

namespace WalletKeys

open Secp256k1

/-- The digests of a tree: the keyed one that extends it, and the one by which keys are named. -/
structure TreeDigests where
  extend : (key message : Octets) → Block 64
  name : Octets → Block 20

/-- HMAC-SHA512, and RIPEMD-160 of SHA-256. -/
def TreeDigests.standard : TreeDigests := ⟨hmacSha512, hash160⟩

/-- A key at its place in a tree. -/
structure TreeNode (kind : Type) where
  versions : KeyVersions
  depth : UInt8
  parentFingerprint : UInt32
  childNumber : UInt32
  chainCode : Block 32
  key : kind
  deriving DecidableEq, Repr

abbrev PrivateNode := TreeNode PrivateKey

abbrev PublicNode := TreeNode PublicKey

/-- A node of either form. -/
inductive ExtendedKey where
  | privateNode (node : PrivateNode)
  | publicNode (node : PublicNode)
  deriving DecidableEq, Repr

/-- The left half of a keyed digest as a number. -/
def leftNumber (digest : Block 64) : Nat :=
  (show Block (32 + 32) from digest).front.toNat

def rightBlock (digest : Block 64) : Block 32 :=
  (show Block (32 + 32) from digest).back

/-- The first four octets of a key's name. -/
def fingerprintBy (digests : TreeDigests) (key : PublicKey) : UInt32 :=
  UInt32.ofNat (Octets.toNat ((digests.name key.shortOctets).octets.take 4))

def childDepth (depth : UInt8) : Except DerivationError UInt8 := do
  require (depth < 255) .depthOverflow
  return depth + 1

namespace TreeNode

def withVersions {kind : Type} (node : TreeNode kind) (versions : KeyVersions) : TreeNode kind :=
  { node with versions }

end TreeNode

namespace PrivateNode

def ofSeed (seed : Octets) (versions : KeyVersions) : Except DerivationError PrivateNode := do
  require (16 ≤ seed.length ∧ seed.length ≤ 64) (.invalidSeedLength seed.length)
  let digest := hmacSha512 (Octets.ofText "Bitcoin seed") seed
  let secret ← demand (Scalar.ofNat? (leftNumber digest)) .invalidSeed
  return {
    versions
    depth := 0
    parentFingerprint := 0
    childNumber := 0
    chainCode := rightBlock digest
    key := PrivateKey.ofScalar secret true }

def toPublic (node : PrivateNode) : PublicNode :=
  { node with key := node.key.publicKey.withCompression true }

/-- What a child is digested from: the secret for a hardened child and else the public key, and the
number of the child. -/
def childData (node : PrivateNode) (index : UInt32) : Octets :=
  (if ChildNumber.hardenedOffset ≤ index then 0x00 :: node.key.octets
    else node.key.publicKey.shortOctets) ++
    Octets.ofNat 4 index.toNat

/-- The child with a number, under given digests. -/
def childBy (digests : TreeDigests) (node : PrivateNode) (index : UInt32) :
    Except DerivationError PrivateNode := do
  let depth ← childDepth node.depth
  let digest := digests.extend node.chainCode.octets (node.childData index)
  let left := leftNumber digest
  require (inScalarRange left) .invalidChild
  let sum := Modular.add left node.key.secret.value groupOrder
  let secret ← demand (Scalar.ofNat? sum) .invalidChild
  return {
    versions := node.versions
    depth
    parentFingerprint := fingerprintBy digests node.key.publicKey
    childNumber := index
    chainCode := rightBlock digest
    key := PrivateKey.ofScalar secret true }

/-- The node at the end of a path, under given digests. -/
def descendBy (digests : TreeDigests) (node : PrivateNode) (path : Path) :
    Except DerivationError PrivateNode :=
  path.foldlM (fun node number => node.childBy digests number.index) node

def child (node : PrivateNode) (index : UInt32) : Except DerivationError PrivateNode :=
  node.childBy .standard index

def descend (node : PrivateNode) (path : Path) : Except DerivationError PrivateNode :=
  node.descendBy .standard path

def fingerprint (node : PrivateNode) : UInt32 :=
  fingerprintBy .standard node.key.publicKey

end PrivateNode

namespace PublicNode

/-- The child with a number, under given digests. -/
def childBy (digests : TreeDigests) (node : PublicNode) (index : UInt32) :
    Except DerivationError PublicNode := do
  require (index < ChildNumber.hardenedOffset) .hardenedFromPublic
  let depth ← childDepth node.depth
  let data := node.key.shortOctets ++ Octets.ofNat 4 index.toNat
  let digest := digests.extend node.chainCode.octets data
  let left := leftNumber digest
  require (inScalarRange left) .invalidChild
  let sum := (Point.mulGenerator left).add node.key.point
  let key ← (PublicKey.ofPoint sum true).mapError fun _ => .invalidChild
  return {
    versions := node.versions
    depth
    parentFingerprint := fingerprintBy digests node.key
    childNumber := index
    chainCode := rightBlock digest
    key }

/-- The node at the end of a path, under given digests. A path with a hardened step is refused
before the first step. -/
def descendBy (digests : TreeDigests) (node : PublicNode) (path : Path) :
    Except DerivationError PublicNode := do
  require (!path.any ChildNumber.isHardened) .hardenedFromPublic
  path.foldlM (fun node number => node.childBy digests number.index) node

def child (node : PublicNode) (index : UInt32) : Except DerivationError PublicNode :=
  node.childBy .standard index

def descend (node : PublicNode) (path : Path) : Except DerivationError PublicNode :=
  node.descendBy .standard path

def fingerprint (node : PublicNode) : UInt32 :=
  fingerprintBy .standard node.key

end PublicNode

namespace ExtendedKey

/-- How many steps the node is below the top of its tree. -/
def depth : ExtendedKey → UInt8
  | privateNode node => node.depth
  | publicNode node => node.depth

def versions : ExtendedKey → KeyVersions
  | privateNode node => node.versions
  | publicNode node => node.versions

/-- The number by which the node follows from its parent. -/
def childNumber : ExtendedKey → UInt32
  | privateNode node => node.childNumber
  | publicNode node => node.childNumber

def toPublic : ExtendedKey → PublicNode
  | privateNode node => node.toPublic
  | publicNode node => node

def private? : ExtendedKey → Option PrivateNode
  | privateNode node => some node
  | publicNode _ => none

def child (key : ExtendedKey) (index : UInt32) : Except DerivationError ExtendedKey :=
  match key with
  | privateNode node => (node.child index).map privateNode
  | publicNode node => (node.child index).map publicNode

def descend (key : ExtendedKey) (path : Path) : Except DerivationError ExtendedKey :=
  match key with
  | privateNode node => (node.descend path).map privateNode
  | publicNode node => (node.descend path).map publicNode

def withVersions (versions : KeyVersions) : ExtendedKey → ExtendedKey
  | privateNode node => privateNode (node.withVersions versions)
  | publicNode node => publicNode (node.withVersions versions)

end ExtendedKey

end WalletKeys
