import WalletKeys.Hd.Text

/-!
# Anchored trees

A tree is a node together with the path at which it sits. Paths are given from the top, so that a
tree exported below the top answers only to paths that begin with its own.
-/

namespace WalletKeys

/-- A node and the path to it, which has a step for every level of depth. -/
structure HdTree where
  root : ExtendedKey
  anchor : Path
  length_anchor : anchor.length = root.depth.toNat
  deriving DecidableEq, Repr

namespace HdTree

def ofRoot (root : ExtendedKey) (anchor : Path) : Except DerivationError HdTree :=
  if h : anchor.length = root.depth.toNat then .ok ⟨root, anchor, h⟩
  else .error .anchorMismatch

def ofNode (root : ExtendedKey) (anchor : String) : Except DerivationError HdTree := do
  let anchor ← Path.parse anchor
  ofRoot root anchor

def ofSeed (seed : Octets) (versions : KeyVersions) : Except DerivationError HdTree := do
  let top ← PrivateNode.ofSeed seed versions
  ofRoot (.privateNode top) []

def ofText (text anchor : String) : Except DerivationError HdTree := do
  let root ← ExtendedKey.parse text
  ofNode root anchor

def anchorText (tree : HdTree) : String :=
  tree.anchor.text

/-- The node at a path, with its secret if the tree has secrets. -/
def derive (tree : HdTree) (path : String) : Except DerivationError ExtendedKey := do
  let full ← Path.parse path
  let rest ← demand (Path.below? tree.anchor full) .anchorMismatch
  tree.root.descend rest

def derivePrivate (tree : HdTree) (path : String) : Except DerivationError PrivateNode := do
  require tree.root.private?.isSome .publicOnly
  let key ← tree.derive path
  demand key.private? .publicOnly

def derivePublic (tree : HdTree) (path : String) : Except DerivationError PublicNode := do
  let node ← tree.derive path
  return node.toPublic

end HdTree

end WalletKeys
