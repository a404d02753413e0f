import WalletKeys.CommandLine.Run
import WalletKeys.Proofs.Address
import WalletKeys.Proofs.Hd.Tree
import WalletKeys.Proofs.Key.Public
import WalletKeys.Proofs.Key.Wif

/-!
# What is shown of a derived key

A key that was derived from a seed is shown by its texts (`DerivedTexts`): those of
its node with the secret and without, its public key, its exported secret if the
network has such a form, and its address. They describe one key. The node is shown
again from its text, with or without the secret, anchored at the path that led to it,
the address from the public key, and the public key from the exported secret
(`derive_texts_consistent`).
-/

namespace WalletKeys.CommandLine

theorem exitCode_eq_zero_iff {report : Report} :
    report.outcome.exitCode = 0 ↔ report.failure = none := by
  rcases report with ⟨lines, failure⟩
  cases failure with
  | none =>
      exact iff_of_true rfl rfl
  | some cause =>
      exact iff_of_false (show (1 : UInt32) ≠ 0 by decide) nofun

/-- Lines in front do not decide how a report ends. -/
theorem exitCode_after (lines : List String) (report : Report) :
    (report.after lines).outcome.exitCode = 0 ↔ report.outcome.exitCode = 0 := by
  rw [exitCode_eq_zero_iff, exitCode_eq_zero_iff, Report.after]

theorem exitCode_failed_ne_zero (cause : String) :
    (Report.failed cause).outcome.exitCode ≠ 0 := by
  rw [Ne, exitCode_eq_zero_iff]
  nofun

theorem labelled_injective (label : String) :
    Function.Injective (labelled label) := by
  intro text other same
  exact (String.append_right_inj _).mp same

/-- What is shown of a derived key. -/
structure DerivedTexts where
  privateText : String
  publicText : String
  publicKey : String
  exported : Option String
  address : String
  deriving DecidableEq, Repr

namespace DerivedTexts

def lines (texts : DerivedTexts) : List String :=
  [labelled "xprv" texts.privateText, labelled "xpub" texts.publicText,
    labelled "public key" texts.publicKey] ++
    (texts.exported.map (labelled "wif")).toList ++
    [labelled "address" texts.address]

/-- The lines of the node without its secret. -/
def publicLines (texts : DerivedTexts) : List String :=
  [labelled "xpub" texts.publicText, labelled "address" texts.address]

/-- The lines tell the texts. -/
theorem lines_injective : Function.Injective lines := by
  rintro ⟨ownPrivate, ownPublic, ownKey, ownExported, ownAddress⟩
    ⟨otherPrivate, otherPublic, otherKey, otherExported, otherAddress⟩ same
  cases ownExported <;> cases otherExported <;>
    simp_all [lines, (labelled_injective _).eq_iff]

/-- The texts of a node with its secret, for the address that its key has. -/
def ofNode (target : Target) (node : PrivateNode) (address : String) :
    DerivedTexts where
  privateText := node.text
  publicText := node.toPublic.text
  publicKey := Hex.encode node.key.publicKey.octets
  exported := (node.key.toWif target.coin target.network).toOption
  address := address

end DerivedTexts

section ReportNode

variable {target : Target} {node : PrivateNode} {address : String}

theorem reportNode_privateNode
    (made :
      addressOfKey target.coin target.network target.scheme node.key.publicKey =
        .ok address) :
    reportNode target (.privateNode node) =
      .success (DerivedTexts.ofNode target node address).lines := by
  simp only [reportNode, reportKey, made]
  cases written : node.key.toWif target.coin target.network <;>
    simp [DerivedTexts.lines, DerivedTexts.ofNode, written, Report.after,
      Report.success, ExtendedKey.toPublic, Except.toOption]

theorem reportNode_publicNode {node : PublicNode}
    (made :
      addressOfKey target.coin target.network target.scheme node.key = .ok address) :
    reportNode target (.publicNode node) =
      .success [labelled "xpub" node.text, labelled "address" address] := by
  simp only [reportNode, made]
  rfl

theorem exists_address_of_reportNode
    (succeeded : (reportNode target (.privateNode node)).outcome.exitCode = 0) :
    ∃ address,
      addressOfKey target.coin target.network target.scheme node.key.publicKey =
        .ok address := by
  rw [reportNode, exitCode_after, reportKey, exitCode_after] at succeeded
  cases made :
      addressOfKey target.coin target.network target.scheme node.key.publicKey with
  | error error =>
      rw [made] at succeeded
      exact absurd succeeded (exitCode_failed_ne_zero _)
  | ok address =>
      exact ⟨address, rfl⟩

end ReportNode

section ReportDerived

variable {target : Target} {source : TreeSource} {path : String}

theorem reportDerived_of_derive {tree : HdTree} {node : ExtendedKey}
    (grown : treeOf target source = .ok tree) (reached : tree.derive path = .ok node) :
    reportDerived target source path = reportNode target node := by
  simp only [reportDerived, grown, reached]

theorem exists_derive_of_reportDerived
    (succeeded : (reportDerived target source path).outcome.exitCode = 0) :
    ∃ tree node,
      treeOf target source = .ok tree ∧ tree.derive path = .ok node ∧
        (reportNode target node).outcome.exitCode = 0 := by
  unfold reportDerived at succeeded
  cases grown : treeOf target source with
  | error cause =>
      rw [grown] at succeeded
      exact absurd succeeded (exitCode_failed_ne_zero _)
  | ok tree =>
      simp only [grown] at succeeded
      cases reached : tree.derive path with
      | error error =>
          rw [reached] at succeeded
          exact absurd succeeded (exitCode_failed_ne_zero _)
      | ok node =>
          rw [reached] at succeeded
          exact ⟨tree, node, rfl, reached, succeeded⟩

theorem treeOf_seed_eq_ok_iff {digits : String} {tree : HdTree} :
    treeOf target (.seed digits) = .ok tree ↔
      ∃ seed entry,
        Hex.decode digits = .ok seed ∧
          tableEntry target.coin target.network target.scheme = .ok entry ∧
          HdTree.ofSeed seed entry.scheme.versions = .ok tree := by
  simp only [treeOf, bind_eq_ok_iff, mapError_eq_ok_iff]
  constructor
  · rintro ⟨seed, read, entry, found, planted⟩
    exact ⟨seed, entry, read, found, planted⟩
  · rintro ⟨seed, entry, read, found, planted⟩
    exact ⟨seed, read, entry, found, planted⟩

theorem treeOf_extendedKey_eq_ok_iff {text anchor : String} {tree : HdTree} :
    treeOf target (.extendedKey text anchor) = .ok tree ↔
      HdTree.ofText text anchor = .ok tree :=
  mapError_eq_ok_iff

end ReportDerived

theorem versions_mem_tableVersions {coin : Coin} {network : Network} {scheme : Scheme}
    {entry : TableEntry} (found : tableEntry coin network scheme = .ok entry) :
    entry.scheme.versions ∈ tableVersions := by
  have isFor := isFor_of_tableEntry found
  exact
    List.mem_flatMap.mpr
      ⟨coin, coin.mem_all,
        List.mem_flatMap.mpr
          ⟨entry.network, isFor.network_mem, List.mem_map_of_mem isFor.scheme_mem⟩⟩

/-- A scheme under which a key has an address takes keys. -/
theorem takesKey_of_addressOfKey {coin : Coin} {network : Network} {scheme : Scheme}
    {key : PublicKey} {address : String}
    (made : addressOfKey coin network scheme key = .ok address) :
    scheme.takesKey = true := by
  obtain ⟨entry, found, -⟩ := bind_eq_ok_iff.mp made
  obtain ⟨-, digest, -, digested, -⟩ := address_eq_ok_iff.mp made
  exact (isFor_of_tableEntry found).exists_digest_iff.mp ⟨digest, digested⟩

theorem addressOf_encode_octets {target : Target} {key : PublicKey} {address : String}
    (onCurve : key.point.isOnCurve = true)
    (made :
      addressOfKey target.coin target.network target.scheme key = .ok address) :
    addressOf target (Hex.encode key.octets) = .ok address := by
  have read : PublicKey.ofOctets key.octets = .ok key :=
    PublicKey.ofOctets_eq_ok_iff.mpr ⟨onCurve, rfl⟩
  rw [addressOf, Hex.decode_encode]
  change (if target.scheme.takesKey then _ else _) = _
  rw [if_pos (takesKey_of_addressOfKey made), read]
  exact mapError_eq_ok_iff.mpr made

/-- A node is shown as it is once more if its text is anchored at its path. -/
theorem reportDerived_text (node : ExtendedKey) {path : String} {full : Path}
    (short : node.HasShortKey) (fits : node.FitsDepth)
    (listed : node.versions ∈ tableVersions) (read : Path.parse path = .ok full)
    (length : full.length = node.depth.toNat) (target : Target) :
    reportDerived target (.extendedKey node.text path) path =
      reportNode target node := by
  obtain ⟨tree, grown, reached⟩ :=
    HdTree.exists_ofText_derive short fits listed read length
  exact reportDerived_of_derive (treeOf_extendedKey_eq_ok_iff.mpr grown) reached

theorem reportNode_toPublic {target : Target} {node : PrivateNode} {address : String}
    (short : node.key.compressed = true)
    (made :
      addressOfKey target.coin target.network target.scheme node.key.publicKey =
        .ok address) :
    reportNode target (.publicNode node.toPublic) =
      .success (DerivedTexts.ofNode target node address).publicLines := by
  have sameKey : node.toPublic.key = node.key.publicKey := by
    rw [PrivateNode.toPublic, PublicKey.withCompression, PrivateKey.publicKey, short]
  rw [← sameKey] at made
  rw [reportNode_publicNode made]
  rfl

/-- A key that is derived from a seed is shown by texts that describe one key, and no
other texts have these lines. Its node, read again and anchored at the path, shows the
same lines, and without the secret those that are public. Its public key has the
address shown, and is that of the exported secret if there is one. -/
theorem derive_texts_consistent {target : Target} {digits path : String}
    {draws : Draws}
    (succeeded :
      ((Request.derive target (.seed digits) path).report draws).outcome.exitCode = 0) :
    ∃ texts : DerivedTexts,
      (Request.derive target (.seed digits) path).report draws =
          .success texts.lines ∧
        (∀ other : DerivedTexts,
          (Request.derive target (.seed digits) path).report draws =
              .success other.lines →
            other = texts) ∧
        (∀ later : Draws,
          (Request.derive target (.extendedKey texts.privateText path) path).report
                later =
              .success texts.lines ∧
            (Request.derive target (.extendedKey texts.publicText path) path).report
                later =
              .success texts.publicLines ∧
            (Request.address target texts.publicKey).report later =
              .success [texts.address]) ∧
        ∀ text ∈ texts.exported, ∃ key,
          PrivateKey.ofWif text target.coin target.network = .ok key ∧
            Hex.encode key.publicKey.octets = texts.publicKey := by
  obtain ⟨tree, node, grown, reached, shown⟩ :=
    exists_derive_of_reportDerived succeeded
  obtain ⟨seed, entry, -, found, planted⟩ := treeOf_seed_eq_ok_iff.mp grown
  obtain ⟨own, full, rfl, read, length, sameVersions, short, fits⟩ :=
    HdTree.exists_privateNode_of_derive planted reached
  obtain ⟨address, made⟩ := exists_address_of_reportNode shown
  have listed : own.versions ∈ tableVersions := by
    rw [sameVersions]
    exact versions_mem_tableVersions found
  have again :
      reportDerived target (.extendedKey own.text path) path =
        reportNode target (.privateNode own) :=
    reportDerived_text (.privateNode own) short fits listed read length target
  have publicAgain :
      reportDerived target (.extendedKey own.toPublic.text path) path =
        reportNode target (.publicNode own.toPublic) :=
    reportDerived_text (.publicNode own.toPublic) ⟨rfl, own.key.isOnCurve_point⟩ fits
      listed read length target
  have lines := (reportDerived_of_derive grown reached).trans (reportNode_privateNode made)
  refine
    ⟨.ofNode target own address, lines, ?_, fun later => ⟨?_, ?_, ?_⟩, ?_⟩
  · intro other same
    exact DerivedTexts.lines_injective (congrArg Report.lines (same.symm.trans lines))
  · exact again.trans (reportNode_privateNode made)
  · exact publicAgain.trans (reportNode_toPublic short made)
  · exact congrArg reportLine (addressOf_encode_octets own.key.isOnCurve_point made)
  · intro text exported
    have written := toOption_eq_some_iff.mp (Option.mem_def.mp exported)
    exact ⟨own.key, PrivateKey.ofWif_eq_ok_iff_toWif.mpr written, rfl⟩

/-- The key at two steps below the seed of zeros, under a witness scheme. -/
theorem derive_texts_consistent_twoSteps :
    let target : Target := ⟨.bitcoin, .main, .p2wpkh⟩
    let digits := Hex.encode (List.replicate 16 0)
    let path := HdTree.twoSteps.text
    let own := (Request.derive target (.seed digits) path).report []
    own.outcome.exitCode = 0 ∧
      ∃ texts : DerivedTexts,
        own = .success texts.lines ∧
          (Request.derive target (.extendedKey texts.privateText path) path).report [] =
            own ∧
          (Request.address target texts.publicKey).report [] =
            .success [texts.address] := by
  intro target digits path own
  have present :
      tableEntry target.coin target.network target.scheme =
        .ok ⟨.bitcoin, ⟨.main, some 0x80, some "bc", CoinTable.bitcoinMain⟩,
          ⟨.p2wpkh, [], .zpub⟩⟩ :=
    rfl
  obtain ⟨tree, planted, node, reached⟩ := HdTree.exists_derive_twoSteps
  obtain ⟨key, -, rfl, -⟩ := HdTree.exists_privateNode_of_derive planted reached
  have grown : treeOf target (.seed digits) = .ok tree :=
    treeOf_seed_eq_ok_iff.mpr ⟨_, _, Hex.decode_encode _, present, planted⟩
  obtain ⟨address, made, -⟩ := exists_address present rfl key.key.publicKey
  have succeeded : own.outcome.exitCode = 0 := by
    change (reportDerived target (.seed digits) path).outcome.exitCode = 0
    rw [reportDerived_of_derive grown reached, reportNode_privateNode made]
    rfl
  obtain ⟨texts, shown, -, again, -⟩ := derive_texts_consistent succeeded
  exact
    ⟨succeeded, texts, shown, (again []).1.trans shown.symm, (again []).2.2⟩

end WalletKeys.CommandLine
