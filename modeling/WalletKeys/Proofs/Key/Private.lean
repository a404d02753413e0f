import WalletKeys.Key.Wif
import WalletKeys.Proofs.FirstDraw
import WalletKeys.Proofs.Hd.Derivation
import WalletKeys.Proofs.Hd.Text

/-!
# Secrets and points correspond

Multiples of the generator are told apart by the class of the scalar modulo the
group order (`Point.mulGenerator_eq_iff_modEq`). A private key therefore has the
point of no other secret, and that point is finite and on the curve. Whatever a
key is made from, a number is taken from it as the secret
(`PrivateKey.Holds`): the number itself, octets, a block of the random source,
an exported secret, the digest of a seed or of a parent, or the text of a node.
-/

namespace WalletKeys

open Secp256k1

namespace Secp256k1.Point

theorem mulGenerator_eq_iff_modEq (left right : ℕ) :
    mulGenerator left = mulGenerator right ↔ left ≡ right [MOD groupOrder] := by
  rw [mulGenerator_eq, mulGenerator_eq, ofGroup_injective.eq_iff,
    nsmul_generatorElement_eq_iff, ZMod.natCast_eq_natCast_iff]

end Secp256k1.Point

namespace PrivateKey

/-- The secret of the key is a number in range, and its point is the multiple of
the generator by that number: finite, and on the curve. -/
structure Holds (key : PrivateKey) (number : ℕ) : Prop where
  secret : key.secret.value = number
  positive : 1 ≤ number
  below : number < groupOrder
  point : key.point = Point.mulGenerator number
  isOnCurve : key.point.isOnCurve = true
  finite : key.point ≠ Point.infinity

theorem holds_of_secret_eq {key : PrivateKey} {number : ℕ}
    (same : key.secret.value = number) : key.Holds number := by
  subst same
  exact
    ⟨rfl, key.secret.positive, key.secret.below, key.point_eq,
      key.isOnCurve_point, Point.ne_infinity_of_isOnCurve key.isOnCurve_point⟩

theorem Holds.withCompression {key : PrivateKey} {number : ℕ}
    (holds : key.Holds number) (compressed : Bool) :
    (key.withCompression compressed).Holds number :=
  holds_of_secret_eq holds.secret

theorem holds_of_ofNat {number : ℕ} {key : PrivateKey}
    (made : ofNat number = .ok key) : key.Holds number := by
  obtain ⟨secret, found, rfl⟩ := Option.map_eq_some_iff.mp (demand_eq_ok_iff.mp made)
  exact holds_of_secret_eq (Scalar.value_of_ofNat? found)

theorem holds_of_ofOctets {octets : Octets} {key : PrivateKey}
    (read : ofOctets octets = .ok key) : key.Holds (Octets.toNat octets) :=
  holds_of_ofNat (require_bind_eq_ok_iff.mp read).2

theorem generate?_eq_some_iff {draws rest : Draws} {key : PrivateKey} :
    generate? draws = some (key, rest) ↔
      ∃ block,
        draws.TakesFirst Block.IsScalar block rest ∧
          key.Holds block.toNat ∧ key.compressed = true := by
  constructor
  · intro generated
    obtain ⟨⟨secret, others⟩, drawn, same⟩ :=
      Option.map_eq_some_iff.mp generated
    cases same
    obtain ⟨block, taken, number⟩ := Scalar.draw?_eq_some_iff.mp drawn
    exact ⟨block, taken, holds_of_secret_eq number, rfl⟩
  · rintro ⟨block, taken, holds, compressed⟩
    have drawn : Scalar.draw? draws = some (key.secret, rest) :=
      Scalar.draw?_eq_some_iff.mpr ⟨block, taken, holds.secret⟩
    have own : key = ofScalar key.secret true := by
      rw [← compressed, ofScalar_secret]
    rw [generate?, drawn, Option.map_some, ← own]

theorem generate?_eq_none_iff {draws : Draws} :
    generate? draws = none ↔ ∀ block ∈ draws, ¬block.IsScalar := by
  rw [generate?, Option.map_eq_none_iff, Scalar.draw?_eq_none_iff]

theorem exists_holds_of_generate? {draws rest : Draws} {key : PrivateKey}
    (drawn : generate? draws = some (key, rest)) :
    ∃ skipped block,
      draws = skipped ++ block :: rest ∧ key.Holds block.toNat := by
  obtain ⟨block, ⟨skipped, split, -, -⟩, holds, -⟩ :=
    generate?_eq_some_iff.mp drawn
  exact ⟨skipped, block, split, holds⟩

/-- An exported secret is what follows the octet of its network. -/
theorem exists_holds_of_ofWif {text : String} {coin : Coin} {network : Network}
    {key : PrivateKey} (read : ofWif text coin network = .ok key) :
    ∃ payload, Base58.decodeChecked text = .ok payload ∧
      key.Holds (Octets.toNat ((payload.drop 1).take 32)) := by
  obtain ⟨version, -, afterVersion⟩ := bind_eq_ok_iff.mp read
  obtain ⟨payload, decoded, afterPayload⟩ := bind_eq_ok_iff.mp afterVersion
  obtain ⟨compressed, -, afterForm⟩ := bind_eq_ok_iff.mp afterPayload
  obtain ⟨-, afterMatch⟩ := require_bind_eq_ok_iff.mp afterForm
  obtain ⟨own, ownRead, same⟩ := bind_eq_ok_iff.mp afterMatch
  cases same
  exact
    ⟨payload, mapError_eq_ok_iff.mp decoded,
      (holds_of_ofOctets ownRead).withCompression compressed⟩

theorem holds_of_ofSeed {seed : Octets} {versions : KeyVersions}
    {node : PrivateNode} (made : PrivateNode.ofSeed seed versions = .ok node) :
    node.key.Holds
      (leftNumber (hmacSha512 (Octets.ofText "Bitcoin seed") seed)) := by
  obtain ⟨secret, found, rfl⟩ := PrivateNode.exists_secret_of_ofSeed made
  exact holds_of_secret_eq (Scalar.value_of_ofNat? found)

theorem holds_of_childBy {digests : TreeDigests} {node child : PrivateNode}
    {index : UInt32} (reached : node.childBy digests index = .ok child) :
    child.key.Holds
      ((leftNumber (node.childDigest digests index) + node.key.secret.value) %
        groupOrder) := by
  obtain ⟨-, -, secret, made, rfl⟩ := PrivateNode.childBy_eq_ok_iff.mp reached
  exact holds_of_secret_eq (Scalar.value_of_ofNat? made)

theorem holds_of_readPrivate {keyData : Octets} {key : PrivateKey}
    (read : ExtendedKey.readPrivate keyData = .ok key) :
    key.Holds (Octets.toNat (keyData.drop 1)) := by
  obtain ⟨-, after⟩ := require_bind_eq_ok_iff.mp read
  obtain ⟨secret, found, same⟩ := demand_bind_eq_ok_iff.mp after
  cases same
  exact holds_of_secret_eq (Scalar.value_of_ofNat? found)

/-- The secret of a node is what follows the zero octet of its key data. -/
theorem exists_holds_of_decode
    {resolve : UInt32 → Option (KeyVersions × KeyForm)} {text : String}
    {node : PrivateNode}
    (read : ExtendedKey.decode resolve text = .ok (.privateNode node)) :
    ∃ payload, Base58.decodeChecked text = .ok payload ∧
      node.key.Holds (Octets.toNat (payload.drop 46)) := by
  obtain ⟨payload, decoded, after⟩ := bind_eq_ok_iff.mp read
  refine ⟨payload, mapError_eq_ok_iff.mp decoded, ?_⟩
  split at after
  · obtain ⟨⟨versions, form⟩, -, rest⟩ := demand_bind_eq_ok_iff.mp after
    obtain ⟨-, keyRead⟩ := require_bind_eq_ok_iff.mp rest
    cases form with
    | publicForm =>
        obtain ⟨key, -, same⟩ := bind_eq_ok_iff.mp keyRead
        cases same
    | privateForm =>
        obtain ⟨key, found, same⟩ := bind_eq_ok_iff.mp keyRead
        cases same
        have holds := holds_of_readPrivate found
        rwa [List.drop_drop] at holds
  · cases after

theorem point_eq_iff (left right : PrivateKey) :
    left.point = right.point ↔ left.secret.value = right.secret.value := by
  rw [left.point_eq, right.point_eq, Point.mulGenerator_eq_iff_modEq, Nat.ModEq,
    Nat.mod_eq_of_lt left.secret.below, Nat.mod_eq_of_lt right.secret.below]

/-- Multiples of the generator are equal exactly for scalars that are congruent
modulo the group order. A key that is made from a number, whichever way, holds
that number, in range, with a finite point of the curve that no other secret
has. -/
theorem secrets_correspond :
    (∀ left right : ℕ,
      Point.mulGenerator left = Point.mulGenerator right ↔
        left ≡ right [MOD groupOrder]) ∧
      (∀ number key, ofNat number = .ok key → key.Holds number) ∧
      (∀ octets key, ofOctets octets = .ok key →
        key.Holds (Octets.toNat octets)) ∧
      (∀ draws key rest, generate? draws = some (key, rest) →
        ∃ skipped block,
          draws = skipped ++ block :: rest ∧ key.Holds block.toNat) ∧
      (∀ text coin network key, ofWif text coin network = .ok key →
        ∃ payload, Base58.decodeChecked text = .ok payload ∧
          key.Holds (Octets.toNat ((payload.drop 1).take 32))) ∧
      (∀ seed versions node, PrivateNode.ofSeed seed versions = .ok node →
        node.key.Holds
          (leftNumber (hmacSha512 (Octets.ofText "Bitcoin seed") seed))) ∧
      (∀ digests node index child,
        PrivateNode.childBy digests node index = .ok child →
          child.key.Holds
            ((leftNumber (node.childDigest digests index) +
              node.key.secret.value) % groupOrder)) ∧
      (∀ resolve text node,
        ExtendedKey.decode resolve text = .ok (.privateNode node) →
          ∃ payload, Base58.decodeChecked text = .ok payload ∧
            node.key.Holds (Octets.toNat (payload.drop 46))) ∧
      (∀ key number compressed, Holds key number →
        (key.withCompression compressed).Holds number) ∧
      ∀ left right : PrivateKey,
        left.point = right.point ↔ left.secret.value = right.secret.value :=
  ⟨Point.mulGenerator_eq_iff_modEq, fun _ _ => holds_of_ofNat,
    fun _ _ => holds_of_ofOctets, fun _ _ _ => exists_holds_of_generate?,
    fun _ _ _ _ => exists_holds_of_ofWif, fun _ _ _ => holds_of_ofSeed,
    fun _ _ _ _ => holds_of_childBy, fun _ _ _ => exists_holds_of_decode,
    fun _ _ compressed holds => holds.withCompression compressed, point_eq_iff⟩

/-- The key with one as its secret. -/
def unit : PrivateKey :=
  ofScalar Scalar.one true

/-- The secret one, exported for the main network of bitcoin. -/
def unitWif : String :=
  "KwDiBf89QgGbjEhKnhXJuH7LrciVrZi3qYjgd9M7rFU73sVHnoWn"

/-- The key of one, made in every way that can make it, and a key of a tree with
its first child. The group order and one make the same point; the group order
alone is skipped when it is drawn. -/
theorem secrets_correspond_unit :
    let draws : Draws := [Block.ofNat 32 groupOrder, Block.ofNat 32 1]
    Point.mulGenerator (groupOrder + 1) = Point.mulGenerator 1 ∧
      Point.mulGenerator groupOrder ≠ Point.mulGenerator 1 ∧
      (ofNat 1 = .ok unit ∧ unit.Holds 1) ∧
      (ofOctets (Octets.ofNat 32 1) = .ok unit ∧
        unit.Holds (Octets.toNat (Octets.ofNat 32 1))) ∧
      (generate? draws = some (unit, []) ∧
        ∃ skipped block, draws = skipped ++ [block] ∧ unit.Holds block.toNat) ∧
      (ofWif unitWif .bitcoin .main = .ok unit ∧
        ∃ payload, Base58.decodeChecked unitWif = .ok payload ∧
          unit.Holds (Octets.toNat ((payload.drop 1).take 32))) ∧
      (∃ top child : PrivateNode,
        (PrivateNode.ofSeed (List.replicate 16 0) .xpub = .ok top ∧
          top.childBy .standard 0 = .ok child) ∧
          top.key.Holds
            (leftNumber
              (hmacSha512 (Octets.ofText "Bitcoin seed") (List.replicate 16 0))) ∧
          child.key.Holds
            ((leftNumber (top.childDigest .standard 0) + top.key.secret.value) %
              groupOrder)) ∧
      (ExtendedKey.parseWith ⟨1, 0⟩ ExtendedKey.unitTop.text =
          .ok (.privateNode ExtendedKey.unitTop) ∧
        ∃ payload, Base58.decodeChecked ExtendedKey.unitTop.text = .ok payload ∧
          ExtendedKey.unitTop.key.Holds (Octets.toNat (payload.drop 46))) ∧
      (unit.withCompression false).Holds 1 ∧
      (unit.withCompression false).point = unit.point := by
  intro draws
  obtain ⟨multiples, numbers, octets, drawn, exported, seeds, children, texts,
    forms, points⟩ := secrets_correspond
  have made : ofNat 1 = .ok unit :=
    rfl
  have read : ofOctets (Octets.ofNat 32 1) = .ok unit := by
    decide +kernel
  have generated : generate? draws = some (unit, []) := by
    decide +kernel
  have imported : ofWif unitWif .bitcoin .main = .ok unit := by
    decide +kernel
  have grown :
      (PrivateNode.ofSeed (List.replicate 16 0) .xpub >>= fun top =>
        top.childBy .standard 0).toOption.isSome := by
    decide +kernel
  have parsed :
      ExtendedKey.parseWith ⟨1, 0⟩ ExtendedKey.unitTop.text =
        .ok (.privateNode ExtendedKey.unitTop) :=
    ExtendedKey.parseWith_eq_ok_iff.mpr ⟨⟨rfl, Or.inr ⟨rfl, rfl⟩⟩, ⟨rfl, rfl⟩, rfl⟩
  refine
    ⟨(multiples _ _).mpr (by decide), (multiples _ _).not.mpr (by decide),
      ⟨made, numbers 1 unit made⟩, ⟨read, octets _ _ read⟩,
      ⟨generated, drawn _ _ _ generated⟩, ⟨imported, exported _ _ _ _ imported⟩,
      ?_, ⟨parsed, texts _ _ _ parsed⟩,
      forms _ _ false (numbers 1 unit made), (points _ _).mpr rfl⟩
  obtain ⟨child, reached⟩ := exists_eq_ok_of_isSome grown
  obtain ⟨top, planted, found⟩ := bind_eq_ok_iff.mp reached
  exact
    ⟨top, child, ⟨planted, found⟩, seeds _ _ _ planted, children _ _ _ _ found⟩

end PrivateKey

end WalletKeys
