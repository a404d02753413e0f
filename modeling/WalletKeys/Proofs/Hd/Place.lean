import WalletKeys.Proofs.Hd.Derivation
import WalletKeys.Proofs.Hd.Text

/-!
# The place of a descendant

A step leads one level down and leaves its number on the child
(`TreeNode.Follows`). A path therefore leads as many levels down as it is long,
to a node that has the last of its numbers (`TreeNode.LiesAlong`). Whatever is
below a node that can be written can be written too
(`PrivateNode.isWritable_of_descendBy`).
-/

namespace WalletKeys

open Secp256k1

namespace TreeNode

variable {kind : Type}

/-- The child is one level below the node and has the number of the step. -/
structure Follows (node : TreeNode kind) (number : ChildNumber)
    (child : TreeNode kind) : Prop where
  versions : child.versions = node.versions
  depth : child.depth.toNat = node.depth.toNat + 1
  childNumber : child.childNumber = number.index

/-- The node is as many levels below the top as the path is long and has its last
number. -/
structure LiesAlong (top : TreeNode kind) (path : Path) (node : TreeNode kind) :
    Prop where
  versions : node.versions = top.versions
  depth : node.depth.toNat = top.depth.toNat + path.length
  childNumber : ∀ number ∈ path.getLast?, node.childNumber = number.index

theorem liesAlong_nil (top : TreeNode kind) : top.LiesAlong [] top :=
  ⟨rfl, rfl, nofun⟩

theorem LiesAlong.concat {top node child : TreeNode kind} {path : Path}
    {number : ChildNumber} (above : top.LiesAlong path node)
    (follows : node.Follows number child) :
    top.LiesAlong (path ++ [number]) child where
  versions := follows.versions.trans above.versions
  depth := by
    rw [follows.depth, above.depth, List.length_append]
    rfl
  childNumber := by
    intro last member
    rw [List.getLast?_concat] at member
    cases member
    exact follows.childNumber

theorem liesAlong_of_foldlM
    {step : TreeNode kind → ChildNumber → Except DerivationError (TreeNode kind)}
    (follows :
      ∀ node number child,
        step node number = .ok child → node.Follows number child)
    {top node : TreeNode kind} {path : Path}
    (reached : path.foldlM step top = .ok node) : top.LiesAlong path node :=
  foldlM_induction top.liesAlong_nil
    (fun _ here number child above stepped =>
      above.concat (follows here number child stepped))
    reached

theorem Follows.fitsDepth {node child : TreeNode kind} {number : ChildNumber}
    (follows : node.Follows number child) : child.FitsDepth := by
  refine Or.inl fun top => ?_
  have depth := follows.depth
  rw [top] at depth
  exact Nat.succ_ne_zero _ depth.symm

end TreeNode

theorem toNat_depth_add_one {depth : UInt8} (shallow : depth < 255) :
    (depth + 1).toNat = depth.toNat + 1 := by
  have bound : depth.toNat < 255 :=
    UInt8.lt_iff_toNat_lt.mp shallow
  rw [UInt8.toNat_add]
  change (depth.toNat + 1) % 256 = _
  omega

namespace PrivateNode

variable {digests : TreeDigests} {top node child : PrivateNode} {path : Path}

theorem follows_of_childBy {number : ChildNumber}
    (reached : node.childBy digests number.index = .ok child) :
    node.Follows number child := by
  obtain ⟨shallow, -, secret, -, rfl⟩ := childBy_eq_ok_iff.mp reached
  exact ⟨rfl, toNat_depth_add_one shallow, rfl⟩

theorem liesAlong_of_descendBy (reached : top.descendBy digests path = .ok node) :
    top.LiesAlong path node :=
  TreeNode.liesAlong_of_foldlM (fun _ _ _ => follows_of_childBy) reached

/-- Every private child has its key in the short form. -/
theorem isWritable_of_childBy {number : ChildNumber}
    (reached : node.childBy digests number.index = .ok child) :
    child.key.compressed = true ∧ child.FitsDepth := by
  have fits := (follows_of_childBy reached).fitsDepth
  obtain ⟨-, -, secret, -, rfl⟩ := childBy_eq_ok_iff.mp reached
  exact ⟨rfl, fits⟩

/-- A short key and fields that fit the depth are kept along a path. -/
theorem isWritable_of_descendBy (short : top.key.compressed = true)
    (fits : top.FitsDepth) (reached : top.descendBy digests path = .ok node) :
    node.key.compressed = true ∧ node.FitsDepth :=
  foldlM_induction (motive := fun _ node => node.key.compressed = true ∧ node.FitsDepth)
    ⟨short, fits⟩ (fun _ _ _ _ _ => isWritable_of_childBy) reached

theorem isTop_of_ofSeed {seed : Octets} {versions : KeyVersions}
    (made : ofSeed seed versions = .ok top) :
    top.versions = versions ∧ top.depth = 0 ∧ top.key.compressed = true ∧
      top.FitsDepth := by
  obtain ⟨secret, -, rfl⟩ := exists_secret_of_ofSeed made
  exact ⟨rfl, rfl, rfl, Or.inr ⟨rfl, rfl⟩⟩

theorem descendBy_append (digests : TreeDigests) (top : PrivateNode)
    (path rest : Path) :
    top.descendBy digests (path ++ rest) =
      top.descendBy digests path >>= fun node => node.descendBy digests rest :=
  List.foldlM_append

end PrivateNode

namespace PublicNode

variable {digests : TreeDigests} {top node child : PublicNode} {path : Path}

theorem follows_of_childBy {number : ChildNumber}
    (reached : node.childBy digests number.index = .ok child) :
    node.Follows number child := by
  obtain ⟨-, shallow, -, key, -, rfl⟩ := childBy_eq_ok_iff.mp reached
  exact ⟨rfl, toNat_depth_add_one shallow, rfl⟩

theorem liesAlong_of_descendBy (reached : top.descendBy digests path = .ok node) :
    top.LiesAlong path node :=
  TreeNode.liesAlong_of_foldlM (fun _ _ _ => follows_of_childBy)
    (require_bind_eq_ok_iff.mp reached).2

end PublicNode

namespace ExtendedKey

theorem place_of_descend {top node : ExtendedKey} {path : Path}
    (reached : top.descend path = .ok node) :
    node.depth.toNat = top.depth.toNat + path.length ∧
      ∀ number ∈ path.getLast?, node.childNumber = number.index := by
  cases top with
  | privateNode own =>
      obtain ⟨below, found, rfl⟩ := map_eq_ok_iff.mp reached
      have along := PrivateNode.liesAlong_of_descendBy found
      exact ⟨along.depth, along.childNumber⟩
  | publicNode own =>
      obtain ⟨below, found, rfl⟩ := map_eq_ok_iff.mp reached
      have along := PublicNode.liesAlong_of_descendBy found
      exact ⟨along.depth, along.childNumber⟩

theorem descend_nil (top : ExtendedKey) : top.descend [] = .ok top := by
  cases top <;> rfl

end ExtendedKey

end WalletKeys
