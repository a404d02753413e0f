import WalletKeys.Hd.Tree
import WalletKeys.Proofs.Hd.Path
import WalletKeys.Proofs.Hd.Place

/-!
# Trees below the top

A tree answers the paths that begin with its anchor, and leads along what follows
it (`HdTree.derive_eq_ok_iff`). A node that was reached in a tree from a seed can
be written, read again and anchored at its path, with its secret or without:
what is derived from there stays the same (`HdTree.derive_reanchored`).

An anchor is as long as its root is deep, so that a derived node is as deep as its
path is long. Nothing more is asked of an anchor. Below it the numbers of the path
are those of the nodes, whereas the root keeps the number it has
(`HdTree.derive_sitsAt`).
-/

namespace WalletKeys

open Secp256k1

namespace ExtendedKey

theorem descend_append_privateNode (top : PrivateNode) (path rest : Path) :
    (privateNode top).descend (path ++ rest) =
      (privateNode top).descend path >>= fun node => node.descend rest := by
  change (top.descendBy .standard (path ++ rest)).map privateNode = _
  rw [PrivateNode.descendBy_append, descend, PrivateNode.descend]
  cases top.descendBy .standard path <;> rfl

theorem map_toPublic_descend (node : PrivateNode) (path : Path) :
    ((publicNode node.toPublic).descend path).map toPublic =
      if path.any ChildNumber.isHardened then .error .hardenedFromPublic
      else ((privateNode node).descend path).map toPublic := by
  have opened :
      (publicNode node.toPublic).descend path =
        (PublicNode.descendBy .standard node.toPublic path).map publicNode :=
    rfl
  rw [opened, descendBy_toPublic_eq_ite, descend, PrivateNode.descend]
  split
  · rfl
  · cases node.descendBy .standard path <;> rfl

/-- The depth of the node is the length of the path, and its number is the last
one of the path. -/
def SitsAt (node : ExtendedKey) (path : Path) : Prop :=
  node.depth.toNat = path.length ∧
    ∀ number ∈ path.getLast?, node.childNumber = number.index

end ExtendedKey

namespace HdTree

theorem ofRoot_eq_ok_iff {root : ExtendedKey} {anchor : Path} {tree : HdTree} :
    ofRoot root anchor = .ok tree ↔ tree.root = root ∧ tree.anchor = anchor := by
  rw [ofRoot]
  constructor
  · intro built
    split at built
    · cases built
      exact ⟨rfl, rfl⟩
    · cases built
  · rintro ⟨rfl, rfl⟩
    exact dif_pos tree.length_anchor

theorem ofNode_eq_ok_iff {root : ExtendedKey} {anchor : String} {tree : HdTree} :
    ofNode root anchor = .ok tree ↔
      tree.root = root ∧ Path.parse anchor = .ok tree.anchor := by
  constructor
  · intro built
    obtain ⟨path, read, placed⟩ := bind_eq_ok_iff.mp built
    obtain ⟨rfl, rfl⟩ := ofRoot_eq_ok_iff.mp placed
    exact ⟨rfl, read⟩
  · rintro ⟨rfl, read⟩
    exact bind_eq_ok_iff.mpr ⟨_, read, ofRoot_eq_ok_iff.mpr ⟨rfl, rfl⟩⟩

theorem ofText_eq_ok_iff {text anchor : String} {tree : HdTree} :
    ofText text anchor = .ok tree ↔
      ExtendedKey.parse text = .ok tree.root ∧
        Path.parse anchor = .ok tree.anchor := by
  constructor
  · intro built
    obtain ⟨root, rootRead, placed⟩ := bind_eq_ok_iff.mp built
    obtain ⟨rfl, read⟩ := ofNode_eq_ok_iff.mp placed
    exact ⟨rootRead, read⟩
  · rintro ⟨rootRead, read⟩
    exact
      bind_eq_ok_iff.mpr ⟨_, rootRead, ofNode_eq_ok_iff.mpr ⟨rfl, read⟩⟩

theorem ofSeed_eq_ok_iff {seed : Octets} {versions : KeyVersions} {tree : HdTree} :
    ofSeed seed versions = .ok tree ↔
      ∃ top, PrivateNode.ofSeed seed versions = .ok top ∧
        tree.root = .privateNode top ∧ tree.anchor = [] := by
  rw [ofSeed, bind_eq_ok_iff]
  simp only [ofRoot_eq_ok_iff]

theorem derive_eq_ok_iff {tree : HdTree} {path : String} {node : ExtendedKey} :
    tree.derive path = .ok node ↔
      ∃ rest, Path.parse path = .ok (tree.anchor ++ rest) ∧
        tree.root.descend rest = .ok node := by
  constructor
  · intro reached
    obtain ⟨full, read, after⟩ := bind_eq_ok_iff.mp reached
    obtain ⟨rest, below, found⟩ := demand_bind_eq_ok_iff.mp after
    rw [Path.below?_eq_some_iff.mp below] at read
    exact ⟨rest, read, found⟩
  · rintro ⟨rest, read, found⟩
    exact
      bind_eq_ok_iff.mpr
        ⟨_, read,
          demand_bind_eq_ok_iff.mpr
            ⟨rest, Path.below?_eq_some_iff.mpr rfl, found⟩⟩

theorem derive_text_append (tree : HdTree) (rest : Path) :
    tree.derive (tree.anchor ++ rest).text = tree.root.descend rest := by
  rw [derive, Path.parse_text, ok_bind, Path.below?_eq_some_iff.mpr rfl]
  rfl

theorem derive_of_not_below {tree : HdTree} {path : String} {full : Path}
    (read : Path.parse path = .ok full) (apart : ¬tree.anchor <+: full) :
    tree.derive path = .error .anchorMismatch := by
  rw [derive, read, ok_bind, Path.below?_eq_none_iff.mpr apart]
  rfl

theorem derivePublic_eq (tree : HdTree) (path : String) :
    tree.derivePublic path = (tree.derive path).map ExtendedKey.toPublic := by
  rw [derivePublic]
  cases tree.derive path <;> rfl

/-- The tree answers no path that is read and does not begin with a given one. -/
def RefusesOutside (tree : HdTree) (base : Path) : Prop :=
  ∀ path full, Path.parse path = .ok full → ¬base <+: full →
    tree.derive path = .error .anchorMismatch ∧
      tree.derivePublic path = .error .anchorMismatch ∧
      tree.derivePrivate path =
        .error (if tree.root.private?.isSome then .anchorMismatch else .publicOnly)

theorem refusesOutside_anchor (tree : HdTree) : tree.RefusesOutside tree.anchor := by
  intro path full read apart
  have refused := derive_of_not_below read apart
  refine ⟨refused, ?_, ?_⟩
  · rw [derivePublic_eq, refused]
    rfl
  · rw [derivePrivate, require_bind, refused]
    split <;> rfl

theorem exists_ofText_text (node : ExtendedKey) {path : Path}
    (short : node.HasShortKey) (fits : node.FitsDepth)
    (listed : node.versions ∈ tableVersions)
    (length : path.length = node.depth.toNat) :
    ∃ tree, ofText node.text path.text = .ok tree ∧
      (∀ rest : Path, tree.derive (path ++ rest).text = node.descend rest) ∧
      tree.RefusesOutside path := by
  have read : ExtendedKey.parse node.text = .ok node :=
    ExtendedKey.parse_eq_ok_iff.mpr ⟨⟨short, fits⟩, listed, rfl⟩
  let tree : HdTree := ⟨node, path, length⟩
  exact
    ⟨tree, ofText_eq_ok_iff.mpr ⟨read, path.parse_text⟩, tree.derive_text_append,
      tree.refusesOutside_anchor⟩

/-- The path may be written in any form in which it is read. -/
theorem exists_ofText_derive {node : ExtendedKey} {path : String} {full : Path}
    (short : node.HasShortKey) (fits : node.FitsDepth)
    (listed : node.versions ∈ tableVersions) (read : Path.parse path = .ok full)
    (length : full.length = node.depth.toNat) :
    ∃ tree, ofText node.text path = .ok tree ∧ tree.derive path = .ok node := by
  have rootRead : ExtendedKey.parse node.text = .ok node :=
    ExtendedKey.parse_eq_ok_iff.mpr ⟨⟨short, fits⟩, listed, rfl⟩
  let tree : HdTree := ⟨node, full, length⟩
  have whole : Path.parse path = .ok (tree.anchor ++ []) := by
    rw [List.append_nil]
    exact read
  exact
    ⟨tree, ofText_eq_ok_iff.mpr ⟨rootRead, read⟩,
      derive_eq_ok_iff.mpr ⟨[], whole, node.descend_nil⟩⟩

/-- A node of a tree from a seed has its secret, and its text can be read. -/
theorem exists_privateNode_of_derive {seed : Octets} {versions : KeyVersions}
    {tree : HdTree} (planted : ofSeed seed versions = .ok tree) {path : String}
    {node : ExtendedKey} (reached : tree.derive path = .ok node) :
    ∃ own : PrivateNode, ∃ full,
      node = .privateNode own ∧ Path.parse path = .ok full ∧
        full.length = own.depth.toNat ∧ own.versions = versions ∧
        own.key.compressed = true ∧ own.FitsDepth := by
  obtain ⟨top, made, rooted, unanchored⟩ := ofSeed_eq_ok_iff.mp planted
  obtain ⟨sameVersions, atTop, topShort, topFits⟩ := PrivateNode.isTop_of_ofSeed made
  obtain ⟨full, read, found⟩ := derive_eq_ok_iff.mp reached
  rw [unanchored, List.nil_append] at read
  rw [rooted] at found
  obtain ⟨own, descended, rfl⟩ := map_eq_ok_iff.mp found
  have along := PrivateNode.liesAlong_of_descendBy descended
  have writable := PrivateNode.isWritable_of_descendBy topShort topFits descended
  refine ⟨own, full, rfl, read, ?_, along.versions.trans sameVersions, writable⟩
  rw [along.depth, atTop]
  exact (Nat.zero_add _).symm

/-- A node of a tree from a seed, written and anchored at its path, leads below
it where the tree leads, errors included. Its public half leads to the public
halves, and to none along a hardened step. Both refuse the paths beside it. -/
theorem derive_reanchored {seed : Octets} {versions : KeyVersions}
    (listed : versions ∈ tableVersions) {tree : HdTree}
    (planted : ofSeed seed versions = .ok tree) {base : Path} {node : ExtendedKey}
    (reached : tree.derive base.text = .ok node) :
    (∃ own, ofText node.text base.text = .ok own ∧
        (∀ rest : Path,
          own.derive (base ++ rest).text = tree.derive (base ++ rest).text) ∧
        own.RefusesOutside base) ∧
      ∃ watch, ofText node.toPublic.text base.text = .ok watch ∧
        (∀ rest : Path,
          watch.derivePublic (base ++ rest).text =
            if rest.any ChildNumber.isHardened then .error .hardenedFromPublic
            else tree.derivePublic (base ++ rest).text) ∧
        watch.RefusesOutside base := by
  obtain ⟨top, made, rooted, unanchored⟩ := ofSeed_eq_ok_iff.mp planted
  obtain ⟨sameVersions, atTop, topShort, topFits⟩ := PrivateNode.isTop_of_ofSeed made
  -- The tree has no anchor, so its top answers every path.
  have answers (path : Path) :
      tree.derive path.text = (ExtendedKey.privateNode top).descend path := by
    have answered := tree.derive_text_append path
    rwa [unanchored, rooted] at answered
  rw [answers] at reached
  -- A private descent splits, whichever part of it fails.
  have onward (rest : Path) :
      tree.derive (base ++ rest).text = node.descend rest := by
    rw [answers, ExtendedKey.descend_append_privateNode, reached, ok_bind]
  obtain ⟨below, found, rfl⟩ := map_eq_ok_iff.mp reached
  have along := PrivateNode.liesAlong_of_descendBy found
  have length : base.length = below.depth.toNat := by
    rw [along.depth, atTop]
    exact (Nat.zero_add _).symm
  have belowListed : below.versions ∈ tableVersions := by
    rw [along.versions, sameVersions]
    exact listed
  obtain ⟨short, fits⟩ := PrivateNode.isWritable_of_descendBy topShort topFits found
  constructor
  · obtain ⟨own, built, leads, refuses⟩ :=
      exists_ofText_text (.privateNode below) short fits belowListed length
    exact ⟨own, built, fun rest => (leads rest).trans (onward rest).symm, refuses⟩
  · obtain ⟨watch, built, leads, refuses⟩ :=
      exists_ofText_text (.publicNode below.toPublic)
        ⟨rfl, below.key.isOnCurve_point⟩ fits belowListed length
    refine ⟨watch, built, fun rest => ?_, refuses⟩
    rw [derivePublic_eq, leads, ExtendedKey.map_toPublic_descend, derivePublic_eq,
      onward]

/-- A hardened step and a step that is not. -/
def twoSteps : Path :=
  [.ofIndex 84 true, .ofIndex 1 false]

theorem exists_derive_twoSteps :
    ∃ tree, ofSeed (List.replicate 16 0) .zpub = .ok tree ∧
      ∃ node, tree.derive twoSteps.text = .ok node := by
  have present :
      (ofSeed (List.replicate 16 0) .zpub >>= fun tree =>
        tree.derive twoSteps.text).toOption.isSome := by
    decide +kernel
  obtain ⟨node, reached⟩ := exists_eq_ok_of_isSome present
  obtain ⟨tree, planted, found⟩ := bind_eq_ok_iff.mp reached
  exact ⟨tree, planted, node, found⟩

/-- The node at two steps, anchored there without its secret. -/
theorem derive_reanchored_twoSteps :
    KeyVersions.zpub ∈ tableVersions ∧
      ∃ tree node watch,
        ofSeed (List.replicate 16 0) .zpub = .ok tree ∧
          tree.derive twoSteps.text = .ok node ∧
          ofText node.toPublic.text twoSteps.text = .ok watch ∧
          watch.derivePublic (twoSteps ++ [ChildNumber.ofIndex 0 false]).text =
            tree.derivePublic (twoSteps ++ [ChildNumber.ofIndex 0 false]).text ∧
          watch.derivePublic (twoSteps ++ [ChildNumber.ofIndex 0 true]).text =
            .error .hardenedFromPublic ∧
          watch.derive "m/0" = .error .anchorMismatch := by
  have listed : KeyVersions.zpub ∈ tableVersions := by
    decide
  have beside : ¬twoSteps <+: [.ofIndex 0 false] := by
    decide
  obtain ⟨tree, planted, node, reached⟩ := exists_derive_twoSteps
  obtain ⟨-, watch, built, leads, refuses⟩ := derive_reanchored listed planted reached
  exact
    ⟨listed, tree, node, watch, planted, reached, built, leads _, leads _,
      (refuses "m/0" _ (Path.parse_text [.ofIndex 0 false]) beside).1⟩

/-! ## Places -/

theorem length_of_descend {tree : HdTree} {rest : Path} {node : ExtendedKey}
    (found : tree.root.descend rest = .ok node) :
    node.depth.toNat = (tree.anchor ++ rest).length := by
  rw [(ExtendedKey.place_of_descend found).1, List.length_append,
    tree.length_anchor]

theorem sitsAt_of_descend {tree : HdTree} {rest : Path} {node : ExtendedKey}
    (found : tree.root.descend rest = .ok node)
    (last : (tree.anchor ++ rest).getLast? = rest.getLast?) :
    node.SitsAt (tree.anchor ++ rest) := by
  refine ⟨length_of_descend found, ?_⟩
  rw [last]
  exact (ExtendedKey.place_of_descend found).2

/-- The node is as deep as the path is long and has the last of its numbers,
unless the path is the anchor, which leads to the root as it is. -/
structure SitsBelow (root : ExtendedKey) (anchor path : Path) (node : ExtendedKey) :
    Prop where
  length : node.depth.toNat = path.length
  sitsAt : path ≠ anchor → node.SitsAt path
  eq_root : path = anchor → node = root

theorem sitsBelow_of_descend {tree : HdTree} {rest : Path} {node : ExtendedKey}
    (found : tree.root.descend rest = .ok node) :
    SitsBelow tree.root tree.anchor (tree.anchor ++ rest) node where
  length := length_of_descend found
  sitsAt := by
    intro different
    have below : rest ≠ [] := by
      rintro rfl
      exact different (List.append_nil _)
    exact sitsAt_of_descend found (List.getLast?_append_of_ne_nil _ below)
  eq_root := by
    intro same
    rw [List.append_right_eq_self.mp same, ExtendedKey.descend_nil] at found
    exact (Except.ok.inj found).symm

theorem sitsAt_of_ofSeed {seed : Octets} {versions : KeyVersions} {tree : HdTree}
    (planted : ofSeed seed versions = .ok tree) {rest : Path} {node : ExtendedKey}
    (found : tree.root.descend rest = .ok node) :
    node.SitsAt (tree.anchor ++ rest) := by
  obtain ⟨-, -, -, unanchored⟩ := ofSeed_eq_ok_iff.mp planted
  apply sitsAt_of_descend found
  rw [unanchored, List.nil_append]

/-- In a tree from a seed every node sits at the path that leads to it. In a tree
from a node and an anchor it does if the path leads below the anchor. The depth is
that of the path in any case. -/
theorem derive_sitsAt {tree : HdTree} {path : String} {node : ExtendedKey}
    (reached : tree.derive path = .ok node) :
    ∃ full, Path.parse path = .ok full ∧
      (∀ seed versions, ofSeed seed versions = .ok tree → node.SitsAt full) ∧
      (∀ root anchor, ofNode root anchor = .ok tree →
        ∃ base, Path.parse anchor = .ok base ∧ SitsBelow root base full node) ∧
      ∀ text anchor, ofText text anchor = .ok tree →
        ∃ root base, ExtendedKey.parse text = .ok root ∧
          Path.parse anchor = .ok base ∧ SitsBelow root base full node := by
  obtain ⟨rest, read, found⟩ := derive_eq_ok_iff.mp reached
  refine ⟨_, read, ?_, ?_, ?_⟩
  · intro seed versions planted
    exact sitsAt_of_ofSeed planted found
  · intro root anchor built
    obtain ⟨rfl, anchorRead⟩ := ofNode_eq_ok_iff.mp built
    exact ⟨_, anchorRead, sitsBelow_of_descend found⟩
  · intro text anchor built
    obtain ⟨rootRead, anchorRead⟩ := ofText_eq_ok_iff.mp built
    exact ⟨_, _, rootRead, anchorRead, sitsBelow_of_descend found⟩

/-- The generator as the first child of some node. -/
def firstChild : PublicNode where
  versions := .xpub
  depth := 1
  parentFingerprint := 0
  childNumber := 0
  chainCode := Block.ofNat 32 0
  key := ⟨Point.generator, true⟩

theorem parse_text_firstChild :
    ExtendedKey.parse firstChild.text = .ok (.publicNode firstChild) :=
  ExtendedKey.parse_eq_ok_iff.mpr
    ⟨⟨⟨rfl, isOnCurve_generator⟩, Or.inl (by decide)⟩, by decide, rfl⟩

/-- The node at two steps below a seed, and a child of the first child. -/
theorem derive_sitsAt_twoSteps :
    (∃ tree, ofSeed (List.replicate 16 0) .zpub = .ok tree ∧
      ∃ node, tree.derive twoSteps.text = .ok node ∧ node.SitsAt twoSteps) ∧
    ∃ tree, ofText firstChild.text "m/0" = .ok tree ∧
      ∃ node, tree.derive "m/0/5" = .ok node ∧
        node.SitsAt [.ofIndex 0 false, .ofIndex 5 false] := by
  constructor
  · obtain ⟨tree, planted, node, reached⟩ := exists_derive_twoSteps
    obtain ⟨full, read, sits, -⟩ := derive_sitsAt reached
    rw [twoSteps.parse_text] at read
    cases read
    exact ⟨tree, planted, node, reached, sits _ _ planted⟩
  · let tree : HdTree := ⟨.publicNode firstChild, [.ofIndex 0 false], rfl⟩
    have built : ofText firstChild.text "m/0" = .ok tree :=
      ofText_eq_ok_iff.mpr
        ⟨parse_text_firstChild, Path.parse_text [.ofIndex 0 false]⟩
    have present : (tree.derive "m/0/5").toOption.isSome := by
      decide +kernel
    obtain ⟨node, reached⟩ := exists_eq_ok_of_isSome present
    obtain ⟨full, read, -, -, ofTexts⟩ := derive_sitsAt reached
    obtain ⟨root, base, -, anchored, below⟩ := ofTexts _ _ built
    cases read.symm.trans (Path.parse_text [.ofIndex 0 false, .ofIndex 5 false])
    cases anchored.symm.trans (Path.parse_text [.ofIndex 0 false])
    exact ⟨tree, built, node, reached, below.sitsAt (by decide)⟩

/-- The first child, anchored where the second one belongs. -/
def misplacedTree : HdTree where
  root := .publicNode firstChild
  anchor := [.ofIndex 1 false]
  length_anchor := rfl

/-- The anchor is not compared with the number of the root. -/
theorem derive_misplacedTree :
    ofText firstChild.text "m/1" = .ok misplacedTree ∧
      misplacedTree.derive "m/1" = .ok (.publicNode firstChild) ∧
      Path.parse "m/1" = .ok [.ofIndex 1 false] ∧
      ¬(ExtendedKey.publicNode firstChild).SitsAt [.ofIndex 1 false] := by
  have anchorRead : Path.parse "m/1" = .ok misplacedTree.anchor :=
    Path.parse_text [.ofIndex 1 false]
  refine
    ⟨ofText_eq_ok_iff.mpr ⟨parse_text_firstChild, anchorRead⟩, ?_, anchorRead, ?_⟩
  · exact derive_eq_ok_iff.mpr ⟨[], anchorRead, rfl⟩
  · intro sits
    exact absurd (sits.2 _ rfl) (by decide)

end HdTree

end WalletKeys
