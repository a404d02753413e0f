import WalletKeys.Hd.Key
import WalletKeys.Proofs.KeyPair

/-!
# Private and public derivation

A step that is not hardened leads from a public node to the public half of
what it leads to from the private node, since adding secrets adds points
(`childBy_toPublic`). The two fail together: at the deepest level, for a digest
out of range, and for a sum of zero, which is a point at infinity. The same
holds along every path (`descendBy_toPublic`).
-/

namespace WalletKeys

open Secp256k1

theorem childDepth_bind {result : Type} (depth : UInt8)
    (next : UInt8 → Except DerivationError result) :
    (childDepth depth >>= next) =
      if depth < 255 then next (depth + 1) else .error .depthOverflow := by
  rw [childDepth, require_bind]
  split <;> rfl

theorem childDepth_bind_eq_ok_iff {result : Type} {depth : UInt8}
    {next : UInt8 → Except DerivationError result} {last : result} :
    (childDepth depth >>= next) = .ok last ↔
      depth < 255 ∧ next (depth + 1) = .ok last := by
  rw [childDepth_bind]
  split
  · next shallow =>
      exact ⟨fun reached => ⟨shallow, reached⟩, And.right⟩
  · next deepest =>
      exact ⟨nofun, fun both => absurd both.1 deepest⟩

namespace PrivateNode

/-- The top that a seed makes: the left half of its digest is the secret. -/
theorem exists_secret_of_ofSeed {seed : Octets} {versions : KeyVersions}
    {top : PrivateNode} (made : ofSeed seed versions = .ok top) :
    ∃ secret,
      Scalar.ofNat? (leftNumber (hmacSha512 (Octets.ofText "Bitcoin seed") seed)) =
          some secret ∧
        top =
          { versions
            depth := 0
            parentFingerprint := 0
            childNumber := 0
            chainCode := rightBlock (hmacSha512 (Octets.ofText "Bitcoin seed") seed)
            key := PrivateKey.ofScalar secret true } := by
  obtain ⟨-, after⟩ := require_bind_eq_ok_iff.mp made
  obtain ⟨secret, found, same⟩ := demand_bind_eq_ok_iff.mp after
  cases same
  exact ⟨secret, found, rfl⟩

/-- The digest that the child with a number follows from. -/
def childDigest (digests : TreeDigests) (node : PrivateNode) (index : UInt32) :
    Block 64 :=
  digests.extend node.chainCode.octets (node.childData index)

/-- The child that a digest and a secret make. -/
def extended (digests : TreeDigests) (node : PrivateNode) (index : UInt32)
    (secret : Scalar) : PrivateNode where
  versions := node.versions
  depth := node.depth + 1
  parentFingerprint := fingerprintBy digests node.key.publicKey
  childNumber := index
  chainCode := rightBlock (node.childDigest digests index)
  key := PrivateKey.ofScalar secret true

/-- What a step does, with its conditions in their order. -/
theorem childBy_eq (digests : TreeDigests) (node : PrivateNode) (index : UInt32) :
    node.childBy digests index =
      if node.depth < 255 then
        if inScalarRange (leftNumber (node.childDigest digests index)) = true then
          (Scalar.ofNat?
            (Modular.add (leftNumber (node.childDigest digests index))
              node.key.secret.value groupOrder)).elim
            (.error .invalidChild) fun secret =>
              .ok (node.extended digests index secret)
        else .error .invalidChild
      else .error .depthOverflow := by
  simp only [childBy, childDepth_bind, require_bind, demand_bind]
  rfl

theorem childBy_eq_ok_iff {digests : TreeDigests} {node child : PrivateNode}
    {index : UInt32} :
    node.childBy digests index = .ok child ↔
      node.depth < 255 ∧
        inScalarRange (leftNumber (node.childDigest digests index)) = true ∧
        ∃ secret,
          Scalar.ofNat?
              (Modular.add (leftNumber (node.childDigest digests index))
                node.key.secret.value groupOrder) =
            some secret ∧
          child = node.extended digests index secret := by
  constructor
  · intro reached
    obtain ⟨shallow, after⟩ := childDepth_bind_eq_ok_iff.mp reached
    obtain ⟨inRange, rest⟩ := require_bind_eq_ok_iff.mp after
    obtain ⟨secret, made, same⟩ := demand_bind_eq_ok_iff.mp rest
    cases same
    exact ⟨shallow, inRange, secret, made, rfl⟩
  · rintro ⟨shallow, inRange, secret, made, rfl⟩
    exact
      childDepth_bind_eq_ok_iff.mpr
        ⟨shallow,
          require_bind_eq_ok_iff.mpr
            ⟨inRange, demand_bind_eq_ok_iff.mpr ⟨secret, made, rfl⟩⟩⟩

/-- A step fails at the deepest level or for want of a secret. -/
theorem error_of_childBy {digests : TreeDigests} {node : PrivateNode}
    {index : UInt32} {failure : DerivationError}
    (failed : node.childBy digests index = .error failure) :
    failure = .depthOverflow ∨ failure = .invalidChild := by
  rw [childBy_eq] at failed
  split at failed
  · split at failed
    · cases made : Scalar.ofNat?
          (Modular.add (leftNumber (node.childDigest digests index))
            node.key.secret.value groupOrder) with
      | none =>
          rw [made] at failed
          cases failed
          exact Or.inr rfl
      | some secret =>
          rw [made] at failed
          cases failed
    · cases failed
      exact Or.inr rfl
  · cases failed
    exact Or.inl rfl

end PrivateNode

namespace PublicNode

/-- The digest that the child with a number follows from. -/
def childDigest (digests : TreeDigests) (node : PublicNode) (index : UInt32) :
    Block 64 :=
  digests.extend node.chainCode.octets
    (node.key.shortOctets ++ Octets.ofNat 4 index.toNat)

/-- The child that a digest and a key make. -/
def extended (digests : TreeDigests) (node : PublicNode) (index : UInt32)
    (key : PublicKey) : PublicNode where
  versions := node.versions
  depth := node.depth + 1
  parentFingerprint := fingerprintBy digests node.key
  childNumber := index
  chainCode := rightBlock (node.childDigest digests index)
  key := key

/-- What a step does that is not hardened. -/
theorem childBy_eq (digests : TreeDigests) (node : PublicNode) {index : UInt32}
    (normal : index < ChildNumber.hardenedOffset) :
    node.childBy digests index =
      if node.depth < 255 then
        if inScalarRange (leftNumber (node.childDigest digests index)) = true then
          ((PublicKey.ofPoint
            ((Point.mulGenerator
              (leftNumber (node.childDigest digests index))).add node.key.point)
            true).mapError fun _ => .invalidChild) >>= fun key =>
              .ok (node.extended digests index key)
        else .error .invalidChild
      else .error .depthOverflow := by
  simp only [childBy, childDepth_bind, require_bind, if_pos normal]
  rfl

theorem childBy_eq_ok_iff {digests : TreeDigests} {node child : PublicNode}
    {index : UInt32} :
    node.childBy digests index = .ok child ↔
      index < ChildNumber.hardenedOffset ∧ node.depth < 255 ∧
        inScalarRange (leftNumber (node.childDigest digests index)) = true ∧
        ∃ key,
          PublicKey.ofPoint
              ((Point.mulGenerator
                (leftNumber (node.childDigest digests index))).add node.key.point)
              true =
            .ok key ∧
          child = node.extended digests index key := by
  constructor
  · intro reached
    obtain ⟨normal, steps⟩ := require_bind_eq_ok_iff.mp reached
    obtain ⟨shallow, after⟩ := childDepth_bind_eq_ok_iff.mp steps
    obtain ⟨inRange, rest⟩ := require_bind_eq_ok_iff.mp after
    obtain ⟨key, made, same⟩ := bind_eq_ok_iff.mp rest
    cases same
    exact ⟨normal, shallow, inRange, key, mapError_eq_ok_iff.mp made, rfl⟩
  · rintro ⟨normal, shallow, inRange, key, made, rfl⟩
    refine
      require_bind_eq_ok_iff.mpr
        ⟨normal, childDepth_bind_eq_ok_iff.mpr ⟨shallow, ?_⟩⟩
    exact
      require_bind_eq_ok_iff.mpr
        ⟨inRange, bind_eq_ok_iff.mpr ⟨key, mapError_eq_ok_iff.mpr made, rfl⟩⟩

end PublicNode

theorem childDigest_toPublic (digests : TreeDigests) (node : PrivateNode)
    {index : UInt32} (normal : index < ChildNumber.hardenedOffset) :
    PublicNode.childDigest digests node.toPublic index =
      node.childDigest digests index := by
  have notHardened : ¬ChildNumber.hardenedOffset ≤ index :=
    UInt32.not_le.mpr normal
  rw [PrivateNode.childDigest, PrivateNode.childData, if_neg notHardened]
  rfl

theorem extended_toPublic (digests : TreeDigests) (node : PrivateNode)
    {index : UInt32} (normal : index < ChildNumber.hardenedOffset)
    (secret : Scalar) :
    PublicNode.extended digests node.toPublic index
        ⟨Point.mulGenerator secret.value, true⟩ =
      (node.extended digests index secret).toPublic := by
  rw [PublicNode.extended, childDigest_toPublic digests node normal]
  rfl

/-- A step that is not hardened commutes with leaving out the secret. -/
theorem childBy_toPublic (digests : TreeDigests) (node : PrivateNode)
    {index : UInt32} (normal : index < ChildNumber.hardenedOffset) :
    PublicNode.childBy digests node.toPublic index =
      (node.childBy digests index).map PrivateNode.toPublic := by
  rw [PublicNode.childBy_eq digests _ normal, PrivateNode.childBy_eq,
    childDigest_toPublic digests node normal]
  change
    (if node.depth < 255 then _ else _) =
      Except.map PrivateNode.toPublic (if node.depth < 255 then _ else _)
  by_cases shallow : node.depth < 255
  case neg =>
    rw [if_neg shallow, if_neg shallow]
    rfl
  rw [if_pos shallow, if_pos shallow]
  by_cases inRange :
      inScalarRange (leftNumber (node.childDigest digests index)) = true
  case neg =>
    rw [if_neg inRange, if_neg inRange]
    rfl
  rw [if_pos inRange, if_pos inRange]
  change
    ((PublicKey.ofPoint (Point.add _ node.key.point) true).mapError _ >>= _) = _
  rw [node.key.ofPoint_mulGenerator_add]
  cases Scalar.ofNat?
      (Modular.add (leftNumber (node.childDigest digests index))
        node.key.secret.value groupOrder) with
  | none =>
      rfl
  | some secret =>
      exact congrArg Except.ok (extended_toPublic digests node normal secret)

theorem foldlM_childBy_toPublic (digests : TreeDigests) (node : PrivateNode)
    (path : Path) (normal : ∀ number ∈ path, number.isHardened = false) :
    path.foldlM
        (fun node number => PublicNode.childBy digests node number.index)
        node.toPublic =
      (node.descendBy digests path).map PrivateNode.toPublic := by
  induction path generalizing node with
  | nil =>
      rfl
  | cons number rest inductionHypothesis =>
      have first : number.index < ChildNumber.hardenedOffset := by
        have notHardened := normal number (List.mem_cons_self ..)
        simpa [ChildNumber.isHardened] using notHardened
      rw [List.foldlM_cons, childBy_toPublic digests node first,
        PrivateNode.descendBy, List.foldlM_cons]
      cases reached : node.childBy digests number.index with
      | error failure =>
          rfl
      | ok child =>
          exact
            inductionHypothesis child fun later member =>
              normal later (List.mem_cons_of_mem _ member)

theorem descendBy_toPublic_eq_ite (digests : TreeDigests) (node : PrivateNode)
    (path : Path) :
    PublicNode.descendBy digests node.toPublic path =
      if path.any ChildNumber.isHardened then .error .hardenedFromPublic
      else (node.descendBy digests path).map PrivateNode.toPublic := by
  rw [PublicNode.descendBy, require_bind]
  cases hardened : path.any ChildNumber.isHardened with
  | true =>
      rfl
  | false =>
      have normal : ∀ number ∈ path, number.isHardened = false := by
        simpa using hardened
      exact foldlM_childBy_toPublic digests node path normal

theorem PrivateNode.error_of_descendBy {digests : TreeDigests}
    {node : PrivateNode} {path : Path} {failure : DerivationError}
    (failed : node.descendBy digests path = .error failure) :
    failure = .depthOverflow ∨ failure = .invalidChild := by
  induction path generalizing node with
  | nil =>
      cases failed
  | cons number rest inductionHypothesis =>
      rw [descendBy, List.foldlM_cons] at failed
      cases reached : node.childBy digests number.index with
      | error cause =>
          rw [reached] at failed
          cases failed
          exact error_of_childBy reached
      | ok child =>
          rw [reached] at failed
          exact inductionHypothesis failed

/-- Along a path without hardened steps, the public half of the private
descendant is the descendant of the public half, and both fail with the same
error, for want of depth or of a secret. -/
theorem descendBy_toPublic (digests : TreeDigests) (node : PrivateNode)
    (path : Path) (normal : ∀ number ∈ path, number.isHardened = false) :
    PublicNode.descendBy digests node.toPublic path =
        (node.descendBy digests path).map PrivateNode.toPublic ∧
      ∀ failure,
        node.descendBy digests path = .error failure →
          failure = .depthOverflow ∨ failure = .invalidChild := by
  have noneHardened : (!path.any ChildNumber.isHardened) = true := by
    simpa using normal
  constructor
  · rw [PublicNode.descendBy, require_bind, if_pos noneHardened]
    exact foldlM_childBy_toPublic digests node path normal
  · intro failure failed
    exact PrivateNode.error_of_descendBy failed

/-- Digests that add the same number to every secret. -/
def constantDigests (number : ℕ) : TreeDigests where
  extend := fun _ _ => Block.ofNat 64 (number <<< 256)
  name := fun _ => Block.ofNat 20 0

/-- A node two levels above the deepest one with one as its secret. -/
def unitNode : PrivateNode where
  versions := .xpub
  depth := 253
  parentFingerprint := 0
  childNumber := 0
  chainCode := Block.ofNat 32 0
  key := PrivateKey.ofScalar Scalar.one false

/-- Two steps count up to three on both sides, and there is no third one. A secret that
the digest cancels leaves no child on either side. -/
theorem descendBy_toPublic_cancelled :
    let path : Path := [.ofIndex 7 false, .ofIndex 0 false]
    let deeper := path ++ [.ofIndex 1 false]
    let counting := constantDigests 1
    let cancelling := constantDigests (groupOrder - 1)
    (∀ number ∈ deeper, number.isHardened = false) ∧
      (∃ below,
        unitNode.descendBy counting path = .ok below ∧ below.depth = 255 ∧
          below.key.secret.value = 3 ∧
            PublicNode.descendBy counting unitNode.toPublic path =
              .ok below.toPublic) ∧
      (unitNode.descendBy counting deeper = .error .depthOverflow ∧
        PublicNode.descendBy counting unitNode.toPublic deeper =
          .error .depthOverflow) ∧
      unitNode.descendBy cancelling path = .error .invalidChild ∧
        PublicNode.descendBy cancelling unitNode.toPublic path =
          .error .invalidChild := by
  intro path deeper counting cancelling
  have normal : ∀ number ∈ path, number.isHardened = false := by
    decide
  have deeperNormal : ∀ number ∈ deeper, number.isHardened = false := by
    decide
  have counted :
      ((unitNode.descendBy counting path).map fun below =>
        (below.depth, below.key.secret.value)) = .ok (255, 3) := by
    decide +kernel
  have tooDeep : unitNode.descendBy counting deeper = .error .depthOverflow := by
    decide +kernel
  have cancelled : unitNode.descendBy cancelling path = .error .invalidChild := by
    decide +kernel
  obtain ⟨below, reached, fields⟩ := map_eq_ok_iff.mp counted
  obtain ⟨depth, secret⟩ := Prod.mk.inj fields
  refine
    ⟨deeperNormal, ⟨below, reached, depth, secret, ?_⟩, ⟨tooDeep, ?_⟩, cancelled, ?_⟩
  · rw [(descendBy_toPublic counting unitNode path normal).1, reached]
    rfl
  · rw [(descendBy_toPublic counting unitNode deeper deeperNormal).1, tooDeep]
    rfl
  · rw [(descendBy_toPublic cancelling unitNode path normal).1, cancelled]
    rfl

end WalletKeys
