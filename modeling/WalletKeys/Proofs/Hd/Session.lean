import WalletKeys.Proofs.Hd.Place

/-!
# Sessions of derivation

A session starts at the top of a tree and goes on by steps: to a child, to the
public half, to other version words of the table, or through the text of the
node and back. A step that fails changes nothing. Every step keeps the depth
equal to the number of children that were taken, the place of the node given by
the last of them, and the key in the short form (`Session.IsSound.advance`), so
that the text of every node reached is read back as that node
(`Session.reached_sound`).
-/

namespace WalletKeys

open Secp256k1

namespace ExtendedKey

def parentFingerprint : ExtendedKey → UInt32
  | privateNode node => node.parentFingerprint
  | publicNode node => node.parentFingerprint

/-- The first four octets of the name of the node's own key. -/
def fingerprint : ExtendedKey → UInt32
  | privateNode node => node.fingerprint
  | publicNode node => node.fingerprint

/-- The key is asked for in the short form. A secret is a scalar and has its
multiple of the generator beside it; a public point is finite and on the
curve. -/
inductive HasSoundKey : ExtendedKey → Prop where
  | privateNode {node : PrivateNode} (short : node.key.compressed = true)
      (positive : 1 ≤ node.key.secret.value)
      (below : node.key.secret.value < groupOrder)
      (point : node.key.point = Point.mulGenerator node.key.secret.value) :
      HasSoundKey (.privateNode node)
  | publicNode {node : PublicNode} (short : node.key.compressed = true)
      (onCurve : node.key.point.isOnCurve = true)
      (finite : node.key.point ≠ Point.infinity) : HasSoundKey (.publicNode node)

theorem HasShortKey.hasSoundKey {node : ExtendedKey} (short : node.HasShortKey) :
    node.HasSoundKey := by
  cases node with
  | privateNode own =>
      exact
        .privateNode short own.key.secret.positive own.key.secret.below
          own.key.point_eq
  | publicNode own =>
      exact .publicNode short.1 short.2 (Point.ne_infinity_of_isOnCurve short.2)

theorem fitsDepth_iff (node : ExtendedKey) :
    node.FitsDepth ↔
      node.depth ≠ 0 ∨ (node.parentFingerprint = 0 ∧ node.childNumber = 0) := by
  cases node <;> rfl

/-- What a node and the number of a step leave on the child. -/
structure HasChild (node : ExtendedKey) (index : UInt32) (child : ExtendedKey) :
    Prop where
  versions : child.versions = node.versions
  depth : child.depth.toNat = node.depth.toNat + 1
  childNumber : child.childNumber = index
  parentFingerprint : child.parentFingerprint = node.fingerprint
  short : child.HasShortKey

theorem hasChild_of_child {node child : ExtendedKey} {index : UInt32}
    (reached : node.child index = .ok child) : node.HasChild index child := by
  cases node with
  | privateNode own =>
      obtain ⟨below, found, rfl⟩ := map_eq_ok_iff.mp reached
      obtain ⟨shallow, -, secret, -, rfl⟩ := PrivateNode.childBy_eq_ok_iff.mp found
      exact ⟨rfl, toNat_depth_add_one shallow, rfl, rfl, rfl⟩
  | publicNode own =>
      obtain ⟨below, found, rfl⟩ := map_eq_ok_iff.mp reached
      obtain ⟨-, shallow, -, key, made, rfl⟩ := PublicNode.childBy_eq_ok_iff.mp found
      have short := PublicKey.isOnCurve_of_ofPoint made
      exact ⟨rfl, toNat_depth_add_one shallow, rfl, rfl, short⟩

end ExtendedKey

/-- What a user does with a node. Version words are chosen from the table. -/
inductive SessionStep where
  | child (index : UInt32)
  | toPublic
  | withVersions (versions : KeyVersions) (listed : versions ∈ tableVersions)
  | reread

namespace SessionStep

/-- The node that a step leads to. -/
def next (step : SessionStep) (node : ExtendedKey) :
    Except DerivationError ExtendedKey :=
  match step with
  | child index => node.child index
  | toPublic => .ok (.publicNode node.toPublic)
  | withVersions versions _ => .ok (node.withVersions versions)
  | reread => ExtendedKey.parse node.text

/-- The derivation that a step from a node is, if it is one. -/
def derivations (step : SessionStep) (node : ExtendedKey) :
    List (ExtendedKey × UInt32) :=
  match step with
  | child index => [(node, index)]
  | _ => []

end SessionStep

/-- A node and the derivations that led to it, last one first, each with the node
it was applied to. -/
structure Session where
  node : ExtendedKey
  derivations : List (ExtendedKey × UInt32)

namespace Session

/-- A step that fails leaves the session as it was. -/
def advance (session : Session) (step : SessionStep) : Session :=
  match step.next session.node with
  | .ok node => ⟨node, step.derivations session.node ++ session.derivations⟩
  | .error _ => session

def run (top : ExtendedKey) (steps : List SessionStep) : Session :=
  steps.foldl advance ⟨top, []⟩

/-- The fields that name the place of the node are zero without a derivation,
and else those of the last one. -/
structure HasPlace (session : Session) : Prop where
  atTop : session.derivations = [] →
    session.node.parentFingerprint = 0 ∧ session.node.childNumber = 0
  below : ∀ parent index earlier,
    session.derivations = (parent, index) :: earlier →
      session.node.childNumber = index ∧
        session.node.parentFingerprint = parent.fingerprint

/-- What every step keeps. -/
structure IsSound (session : Session) : Prop where
  depth : session.node.depth.toNat = session.derivations.length
  place : session.HasPlace
  short : session.node.HasShortKey
  listed : session.node.versions ∈ tableVersions

namespace IsSound

variable {session : Session}

theorem length_le (sound : session.IsSound) : session.derivations.length ≤ 255 := by
  have bound := session.node.depth.toNat_lt
  have depth := sound.depth
  omega

/-- Only a node without a derivation is at the top, and it has neither a parent
nor a number. -/
theorem fitsDepth (sound : session.IsSound) : session.node.FitsDepth := by
  rw [ExtendedKey.fitsDepth_iff]
  have depth := sound.depth
  cases derived : session.derivations with
  | nil =>
      exact Or.inr (sound.place.atTop derived)
  | cons last rest =>
      left
      intro top
      rw [top, derived, List.length_cons] at depth
      exact Nat.succ_ne_zero rest.length depth.symm

/-- The text of the node is read as the node. -/
theorem parse_text (sound : session.IsSound) :
    ExtendedKey.parse session.node.text = .ok session.node :=
  ExtendedKey.parse_eq_ok_iff.mpr
    ⟨⟨sound.short, sound.fitsDepth⟩, sound.listed, rfl⟩

theorem child {index : UInt32} {child : ExtendedKey} (sound : session.IsSound)
    (reached : session.node.child index = .ok child) :
    IsSound ⟨child, (session.node, index) :: session.derivations⟩ := by
  have below := ExtendedKey.hasChild_of_child reached
  constructor
  · rw [List.length_cons, below.depth, sound.depth]
  · refine ⟨nofun, fun parent number earlier same => ?_⟩
    cases same
    exact ⟨below.childNumber, below.parentFingerprint⟩
  · exact below.short
  · rw [below.versions]
    exact sound.listed

theorem toPublic (sound : session.IsSound) :
    IsSound ⟨.publicNode session.node.toPublic, session.derivations⟩ := by
  rcases session with ⟨node, derivations⟩
  cases node with
  | privateNode own =>
      exact
        ⟨sound.depth, ⟨sound.place.atTop, sound.place.below⟩,
          ⟨rfl, own.key.isOnCurve_point⟩, sound.listed⟩
  | publicNode own =>
      exact sound

theorem withVersions {versions : KeyVersions} (sound : session.IsSound)
    (listed : versions ∈ tableVersions) :
    IsSound ⟨session.node.withVersions versions, session.derivations⟩ := by
  rcases session with ⟨node, derivations⟩
  cases node with
  | privateNode own =>
      exact
        ⟨sound.depth, ⟨sound.place.atTop, sound.place.below⟩, sound.short, listed⟩
  | publicNode own =>
      exact
        ⟨sound.depth, ⟨sound.place.atTop, sound.place.below⟩, sound.short, listed⟩

theorem advance (sound : session.IsSound) (step : SessionStep) :
    (session.advance step).IsSound := by
  unfold Session.advance
  cases reached : step.next session.node with
  | error failure =>
      exact sound
  | ok node =>
      cases step with
      | child index =>
          exact sound.child reached
      | toPublic =>
          cases reached
          exact sound.toPublic
      | withVersions versions listed =>
          cases reached
          exact sound.withVersions listed
      | reread =>
          have same : node = session.node :=
            Except.ok.inj (reached.symm.trans sound.parse_text)
          rw [same]
          exact sound

end IsSound

theorem isSound_ofSeed {seed : Octets} {versions : KeyVersions} {top : PrivateNode}
    (listed : versions ∈ tableVersions)
    (made : PrivateNode.ofSeed seed versions = .ok top) :
    IsSound ⟨.privateNode top, []⟩ := by
  obtain ⟨own, depth, short, fits⟩ := PrivateNode.isTop_of_ofSeed made
  constructor
  · exact congrArg UInt8.toNat depth
  · exact ⟨fun _ => fits.resolve_left (not_not_intro depth), nofun⟩
  · exact short
  · change top.versions ∈ tableVersions
    rw [own]
    exact listed

theorem isSound_run {top : ExtendedKey} (start : IsSound ⟨top, []⟩)
    (steps : List SessionStep) : (run top steps).IsSound := by
  apply List.foldlRecOn
  · exact start
  · intro session sound step _
    exact sound.advance step

/-- A node that is reached from a seed is as deep as children were taken, at most
255; it has the number of the last one and the fingerprint of the node that it
was taken from, or zeros; its key is sound; and it is read back from its text. -/
theorem reached_sound {seed : Octets} {versions : KeyVersions} {top : PrivateNode}
    (listed : versions ∈ tableVersions)
    (made : PrivateNode.ofSeed seed versions = .ok top) (steps : List SessionStep) :
    let session := run (.privateNode top) steps
    (session.node.depth.toNat = session.derivations.length ∧
        session.derivations.length ≤ 255) ∧
      session.HasPlace ∧
      session.node.HasSoundKey ∧
      ExtendedKey.parse session.node.text = .ok session.node ∧
      session.advance .reread = session := by
  intro session
  have sound : session.IsSound :=
    isSound_run (isSound_ofSeed listed made) steps
  refine
    ⟨⟨sound.depth, sound.length_le⟩, sound.place, sound.short.hasSoundKey,
      sound.parse_text, ?_⟩
  rw [advance, SessionStep.next, sound.parse_text]
  rfl

theorem zpub_mem_tableVersions : KeyVersions.zpub ∈ tableVersions := by
  decide

/-- A hardened child, other version words, the public half, and a hardened child
that it refuses. -/
def mixedSteps : List SessionStep :=
  [.child 0x80000000, .withVersions .zpub zpub_mem_tableVersions, .toPublic,
    .child 0x80000002]

/-- One of the steps is a derivation: the node is at depth one, has the number of
that step and the fingerprint of the top, and is read back. -/
theorem reached_sound_mixed :
    ∃ top : PrivateNode,
      PrivateNode.ofSeed (List.replicate 16 0) .xpub = .ok top ∧
        let session := run (.privateNode top) mixedSteps
        session.derivations.map Prod.snd = [0x80000000] ∧
          session.node.depth.toNat = 1 ∧ session.HasPlace ∧
          session.node.HasSoundKey ∧
          ExtendedKey.parse session.node.text = .ok session.node ∧
          session.advance .reread = session := by
  have numbers :
      ((PrivateNode.ofSeed (List.replicate 16 0) .xpub).map fun top =>
          (run (.privateNode top) mixedSteps).derivations.map Prod.snd).toOption =
        some [0x80000000] := by
    decide +kernel
  obtain ⟨top, made, derived⟩ := map_eq_ok_iff.mp (toOption_eq_some_iff.mp numbers)
  have listed : KeyVersions.xpub ∈ tableVersions := by
    decide
  obtain ⟨⟨depth, -⟩, reached⟩ := reached_sound listed made mixedSteps
  refine ⟨top, made, derived, ?_, reached⟩
  rw [depth, ← List.length_map Prod.snd, derived]
  rfl

end Session

end WalletKeys
