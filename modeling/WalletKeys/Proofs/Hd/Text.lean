import WalletKeys.Hd.Text
import WalletKeys.Proofs.Codec.Base58
import WalletKeys.Proofs.KeyPair
import WalletKeys.Proofs.Secp256k1.Sec1

/-!
# Extended keys are read back

A payload of 78 octets and the fields of a node determine each other
(`readNode_payload`, `payload_readNode`), key data and a key in the short form
do (`readPublic_eq_ok_iff`, `readPrivate_eq_ok_iff`), and a version word and its
form do. Hence the text of a node is read as that node, unless a node at the
top has a parent or a number, and only the text of a node is read as it
(`ExtendedKey.decode_text`, `ExtendedKey.decode_eq_ok_iff`).
-/

namespace WalletKeys

open Secp256k1

namespace KeyVersions

/-- The word of a form. -/
def word (versions : KeyVersions) : KeyForm → UInt32
  | .publicForm => versions.publicWord
  | .privateForm => versions.privateWord

theorem form?_word {versions : KeyVersions} (distinct : versions.Distinct)
    (form : KeyForm) : versions.form? (versions.word form) = some form := by
  cases form with
  | publicForm =>
      exact if_pos rfl
  | privateForm =>
      rw [form?, word, if_neg distinct, if_pos rfl]

/-- If the two words are the same, the private one is taken for the public
one. -/
theorem exists_form?_word (versions : KeyVersions) (form : KeyForm) :
    ∃ other, versions.form? (versions.word form) = some other := by
  by_cases same : versions.publicWord = versions.word form
  · exact ⟨.publicForm, if_pos same⟩
  · cases form with
    | publicForm =>
        exact absurd rfl same
    | privateForm =>
        exact ⟨.privateForm, by rw [form?, if_neg same, word, if_pos rfl]⟩

theorem word_of_form? {versions : KeyVersions} {word : UInt32} {form : KeyForm}
    (found : versions.form? word = some form) : versions.word form = word := by
  unfold form? at found
  split at found
  · next same =>
      cases found
      exact same
  · split at found
    · next same =>
        cases found
        exact same
    · cases found

end KeyVersions

/-- No word of the table belongs to other version words or to the other form. -/
theorem findVersions?_word {versions : KeyVersions} (listed : versions ∈ tableVersions)
    (form : KeyForm) :
    findVersions? (versions.word form) = some (versions, form) := by
  have all :
      ∀ versions ∈ tableVersions,
        findVersions? (versions.word .publicForm) = some (versions, .publicForm) ∧
          findVersions? (versions.word .privateForm) =
            some (versions, .privateForm) := by
    decide
  cases form with
  | publicForm =>
      exact (all versions listed).1
  | privateForm =>
      exact (all versions listed).2

section FindVersions

variable {word : UInt32} {versions : KeyVersions} {form : KeyForm}

theorem form?_of_findVersions? (found : findVersions? word = some (versions, form)) :
    versions ∈ tableVersions ∧ versions.form? word = some form := by
  obtain ⟨candidate, listed, hit⟩ := List.exists_of_findSome?_eq_some found
  obtain ⟨own, ownFound, same⟩ := Option.map_eq_some_iff.mp hit
  cases same
  exact ⟨listed, ownFound⟩

theorem word_of_findVersions? (found : findVersions? word = some (versions, form)) :
    versions.word form = word :=
  KeyVersions.word_of_form? (form?_of_findVersions? found).2

theorem mem_of_findVersions? (found : findVersions? word = some (versions, form)) :
    versions ∈ tableVersions :=
  (form?_of_findVersions? found).1

end FindVersions

theorem take_drop_append {front middle : Octets} {place count : ℕ}
    (atPlace : front.length = place) (size : middle.length = count)
    (back : Octets) : ((front ++ middle ++ back).drop place).take count = middle := by
  subst atPlace size
  rw [List.append_assoc, List.drop_left, List.take_left]

namespace ExtendedKey

theorem wordAt_append {front : Octets} {place : ℕ} (atPlace : front.length = place)
    (word : UInt32) (back : Octets) :
    wordAt place (front ++ Octets.ofNat 4 word.toNat ++ back) = word := by
  rw [wordAt, take_drop_append atPlace (Octets.length_ofNat _ _),
    Octets.toNat_ofNat_of_lt word.toNat_lt, UInt32.ofNat_toNat]

theorem ofNat_wordAt {payload : Octets} {place : ℕ}
    (enough : place + 4 ≤ payload.length) :
    Octets.ofNat 4 (wordAt place payload).toNat = (payload.drop place).take 4 := by
  have length : ((payload.drop place).take 4).length = 4 := by
    rw [List.length_take, List.length_drop]
    omega
  have bound : Octets.toNat ((payload.drop place).take 4) < UInt32.size := by
    have below := Octets.toNat_lt ((payload.drop place).take 4)
    rwa [length] at below
  rw [wordAt, UInt32.toNat_ofNat_of_lt' bound, Octets.ofNat_toNat length]

section Payload

variable {kind other : Type} (node : TreeNode kind) (word : UInt32)
  (keyData : Octets)

theorem length_payload :
    (node.payload word keyData).length = 45 + keyData.length := by
  simp only [TreeNode.payload, List.length_append, Octets.length_ofNat,
    Block.length_octets, List.length_cons, List.length_nil]

theorem wordAt_payload : wordAt 0 (node.payload word keyData) = word := by
  have front : ([] : Octets).length = 0 :=
    rfl
  rw [TreeNode.payload]
  simp only [List.append_assoc]
  exact wordAt_append front word _

theorem drop_payload : (node.payload word keyData).drop 45 = keyData := by
  have front := length_payload node word []
  rw [TreeNode.payload, List.append_nil] at front
  exact List.drop_left' front

/-- The fields are found at their places. -/
theorem readNode_payload (versions : KeyVersions)
    (h : (node.payload word keyData).length = nodeSize) (key : other) :
    readNode versions (node.payload word keyData) h key =
      ⟨versions, node.depth, node.parentFingerprint, node.childNumber,
        node.chainCode, key⟩ := by
  have parent :
      wordAt 5 (node.payload word keyData) = node.parentFingerprint := by
    have front :
        (Octets.ofNat 4 word.toNat ++ [node.depth]).length = 5 :=
      rfl
    have found :=
      wordAt_append front node.parentFingerprint
        (Octets.ofNat 4 node.childNumber.toNat ++
          (node.chainCode.octets ++ keyData))
    simpa only [TreeNode.payload, List.append_assoc] using found
  have number : wordAt 9 (node.payload word keyData) = node.childNumber := by
    have front :
        (Octets.ofNat 4 word.toNat ++ [node.depth] ++
          Octets.ofNat 4 node.parentFingerprint.toNat).length = 9 :=
      rfl
    have found :=
      wordAt_append front node.childNumber (node.chainCode.octets ++ keyData)
    simpa only [TreeNode.payload, List.append_assoc] using found
  have chain :
      ((node.payload word keyData).drop 13).take 32 = node.chainCode.octets := by
    have front :
        (Octets.ofNat 4 word.toNat ++ [node.depth] ++
          Octets.ofNat 4 node.parentFingerprint.toNat ++
          Octets.ofNat 4 node.childNumber.toNat).length = 13 :=
      rfl
    exact take_drop_append front node.chainCode.length_octets keyData
  simp only [readNode, parent, number, chain]
  rfl

/-- A payload is that of the fields found in it. -/
theorem payload_readNode (versions : KeyVersions) (payload : Octets)
    (h : payload.length = nodeSize) (key : other) :
    (readNode versions payload h key).payload (wordAt 0 payload) (payload.drop 45) =
      payload := by
  have size : payload.length = 78 :=
    h
  have depth : [payload.getD 4 0] = (payload.drop 4).take 1 := by
    have inside : 4 < payload.length := by
      omega
    rw [List.take_one_drop_eq_of_lt_length inside,
      List.getD_eq_getElem?_getD, List.getElem?_eq_getElem inside]
    rfl
  have joined (place count : ℕ) :
      (payload.drop place).take count ++ payload.drop (place + count) =
        payload.drop place := by
    rw [← List.drop_drop, List.take_append_drop]
  simp only [TreeNode.payload, readNode, List.append_assoc, depth]
  rw [ofNat_wordAt (by omega), ofNat_wordAt (by omega), ofNat_wordAt (by omega),
    joined 13 32, joined 9 4, joined 5 4, joined 4 1, joined 0 4]
  rfl

end Payload

theorem readPublic_eq_ok_iff {keyData : Octets} (length : keyData.length = 33)
    {key : PublicKey} :
    readPublic keyData = .ok key ↔
      (key.compressed = true ∧ key.point.isOnCurve = true) ∧
        keyData = key.shortOctets := by
  constructor
  · intro read
    obtain ⟨-, after⟩ := require_bind_eq_ok_iff.mp read
    obtain ⟨point, found, made⟩ := bind_eq_ok_iff.mp after
    rw [mapError_eq_ok_iff] at found made
    obtain ⟨onCurve, written⟩ := (Point.decode_short_eq_ok_iff length).mp found
    rw [PublicKey.ofPoint_of_isOnCurve onCurve] at made
    cases made
    rw [PublicKey.shortOctets_eq]
    exact ⟨⟨rfl, onCurve⟩, written⟩
  · rintro ⟨⟨short, onCurve⟩, rfl⟩
    rcases key with ⟨point, compressed⟩
    cases short
    rw [PublicKey.shortOctets_eq] at length ⊢
    have lead :
        point.compressed.head? = some 0x02 ∨ point.compressed.head? = some 0x03 :=
      (Point.shortLead_eq_or point.isOdd).imp (congrArg some) (congrArg some)
    have found : Point.decode point.compressed = .ok point :=
      (Point.decode_short_eq_ok_iff length).mpr ⟨onCurve, rfl⟩
    rw [readPublic, require_bind, if_pos lead, found]
    change (PublicKey.ofPoint point true).mapError _ = _
    rw [PublicKey.ofPoint_of_isOnCurve onCurve]
    rfl

theorem readPrivate_eq_ok_iff {keyData : Octets} (length : keyData.length = 33)
    {key : PrivateKey} :
    readPrivate keyData = .ok key ↔
      key.compressed = true ∧ keyData = 0x00 :: key.octets := by
  cases keyData with
  | nil =>
      cases length
  | cons lead rest =>
      have restLength : rest.length = 32 :=
        Nat.succ.inj length
      constructor
      · intro read
        obtain ⟨zero, after⟩ := require_bind_eq_ok_iff.mp read
        obtain ⟨secret, found, made⟩ := demand_bind_eq_ok_iff.mp after
        cases zero
        cases made
        refine ⟨rfl, ?_⟩
        change _ = 0x00 :: Octets.ofNat 32 secret.value
        rw [Scalar.value_of_ofNat? found, List.drop_one, List.tail_cons,
          Octets.ofNat_toNat restLength]
      · rintro ⟨short, written⟩
        rw [written]
        refine require_bind_eq_ok_iff.mpr ⟨rfl, demand_bind_eq_ok_iff.mpr ?_⟩
        refine ⟨key.secret, ?_, ?_⟩
        · rw [List.drop_one, List.tail_cons, key.toNat_octets, Scalar.ofNat?_value]
        · rw [← short, key.ofScalar_secret]
          rfl

end ExtendedKey

/-! ## Payloads -/

/-- A node at the top has neither a parent nor a number. -/
def TreeNode.FitsDepth {kind : Type} (node : TreeNode kind) : Prop :=
  node.depth ≠ 0 ∨ (node.parentFingerprint = 0 ∧ node.childNumber = 0)

instance {kind : Type} (node : TreeNode kind) : Decidable node.FitsDepth :=
  inferInstanceAs (Decidable (_ ∨ _))

namespace ExtendedKey

def form : ExtendedKey → KeyForm
  | privateNode _ => .privateForm
  | publicNode _ => .publicForm

def payload : ExtendedKey → Octets
  | privateNode node => node.payload node.versions.privateWord (0x00 :: node.key.octets)
  | publicNode node => node.payload node.versions.publicWord node.key.shortOctets

def FitsDepth : ExtendedKey → Prop
  | privateNode node => node.FitsDepth
  | publicNode node => node.FitsDepth

/-- The key is asked for in the short form, and a public one is a point of the
curve. -/
def HasShortKey : ExtendedKey → Prop
  | privateNode node => node.key.compressed = true
  | publicNode node =>
      node.key.compressed = true ∧ node.key.point.isOnCurve = true

theorem text_eq (key : ExtendedKey) : key.text = Base58.encodeChecked key.payload := by
  cases key <;> rfl

theorem length_payload_eq (key : ExtendedKey) : key.payload.length = nodeSize := by
  cases key with
  | privateNode node =>
      rw [payload, length_payload, List.length_cons, PrivateKey.octets,
        Octets.length_ofNat]
      rfl
  | publicNode node =>
      rw [payload, length_payload, PublicKey.shortOctets_eq, Point.length_compressed]
      rfl

theorem wordAt_payload_eq (key : ExtendedKey) :
    wordAt 0 key.payload = key.versions.word key.form := by
  cases key with
  | privateNode node =>
      exact wordAt_payload ..
  | publicNode node =>
      exact wordAt_payload ..

section Resolve

variable {resolve : UInt32 → Option (KeyVersions × KeyForm)}

theorem decode_text_eq (key : ExtendedKey) :
    decode resolve key.text = ofPayload resolve key.payload key.length_payload_eq := by
  rw [decode, text_eq, Base58.decodeChecked_eq_ok_iff.mpr rfl]
  exact dif_pos key.length_payload_eq

theorem decode_text {key : ExtendedKey} (short : key.HasShortKey)
    (fits : key.FitsDepth)
    (resolved :
      resolve (key.versions.word key.form) = some (key.versions, key.form)) :
    decode resolve key.text = .ok key := by
  rw [decode_text_eq, ofPayload, wordAt_payload_eq, resolved, demand_some, ok_bind]
  cases key with
  | privateNode node =>
      have length : (0x00 :: node.key.octets).length = 33 := by
        rw [List.length_cons, PrivateKey.octets, Octets.length_ofNat]
      have read : readPrivate (0x00 :: node.key.octets) = .ok node.key :=
        (readPrivate_eq_ok_iff length).mpr ⟨short, rfl⟩
      simp only [payload, form, readNode_payload, drop_payload, read]
      exact require_bind_eq_ok_iff.mpr ⟨fits, rfl⟩
  | publicNode node =>
      have length : node.key.shortOctets.length = 33 := by
        rw [PublicKey.shortOctets_eq, Point.length_compressed]
      have read : readPublic node.key.shortOctets = .ok node.key :=
        (readPublic_eq_ok_iff length).mpr ⟨short, rfl⟩
      simp only [payload, form, readNode_payload, drop_payload, read]
      exact require_bind_eq_ok_iff.mpr ⟨fits, rfl⟩

/-- The fields of the top are looked at before the key. -/
theorem decode_text_of_not_fitsDepth {key : ExtendedKey} (broken : ¬key.FitsDepth)
    {form : KeyForm}
    (resolved : resolve (key.versions.word key.form) = some (key.versions, form)) :
    decode resolve key.text = .error .invalidRootFields := by
  rw [decode_text_eq, ofPayload, wordAt_payload_eq, resolved, demand_some, ok_bind]
  cases key with
  | privateNode node =>
      simp only [payload, readNode_payload, require_bind]
      exact if_neg broken
  | publicNode node =>
      simp only [payload, readNode_payload, require_bind]
      exact if_neg broken

/-- What a payload is read as has this payload, if words are resolved to what
they are a word of. -/
theorem payload_of_ofPayload
    (faithful :
      ∀ word versions form,
        resolve word = some (versions, form) → versions.word form = word)
    {octets : Octets} {h : octets.length = nodeSize} {key : ExtendedKey}
    (read : ofPayload resolve octets h = .ok key) :
    key.payload = octets ∧ (key.HasShortKey ∧ key.FitsDepth) ∧
      resolve (key.versions.word key.form) = some (key.versions, key.form) := by
  have length : (octets.drop 45).length = 33 := by
    rw [List.length_drop, h]
    rfl
  obtain ⟨⟨versions, form⟩, resolved, after⟩ := demand_bind_eq_ok_iff.mp read
  obtain ⟨fits, rest⟩ := require_bind_eq_ok_iff.mp after
  have word := faithful _ versions form resolved
  rw [← word] at resolved
  cases form with
  | publicForm =>
      obtain ⟨publicKey, keyRead, same⟩ := bind_eq_ok_iff.mp rest
      obtain ⟨short, written⟩ := (readPublic_eq_ok_iff length).mp keyRead
      cases same
      refine ⟨?_, ⟨short, fits⟩, resolved⟩
      change (readNode versions octets h publicKey).payload
        (versions.word .publicForm) publicKey.shortOctets = octets
      rw [word, ← written, payload_readNode]
  | privateForm =>
      obtain ⟨privateKey, keyRead, same⟩ := bind_eq_ok_iff.mp rest
      obtain ⟨short, written⟩ := (readPrivate_eq_ok_iff length).mp keyRead
      cases same
      refine ⟨?_, ⟨short, fits⟩, resolved⟩
      change (readNode versions octets h privateKey).payload
        (versions.word .privateForm) (0x00 :: privateKey.octets) = octets
      rw [word, ← written, payload_readNode]

theorem decode_eq_ok_iff
    (faithful :
      ∀ word versions form,
        resolve word = some (versions, form) → versions.word form = word)
    {text : String} {key : ExtendedKey} :
    decode resolve text = .ok key ↔
      (key.HasShortKey ∧ key.FitsDepth) ∧
        resolve (key.versions.word key.form) = some (key.versions, key.form) ∧
        text = key.text := by
  constructor
  · intro read
    obtain ⟨octets, found, after⟩ := bind_eq_ok_iff.mp read
    rw [mapError_eq_ok_iff, Base58.decodeChecked_eq_ok_iff] at found
    split at after
    · obtain ⟨same, proper, resolved⟩ := payload_of_ofPayload faithful after
      exact ⟨proper, resolved, by rw [found, text_eq, same]⟩
    · cases after
  · rintro ⟨⟨short, fits⟩, resolved, rfl⟩
    exact decode_text short fits resolved

end Resolve

theorem parse_eq_ok_iff {text : String} {key : ExtendedKey} :
    parse text = .ok key ↔
      (key.HasShortKey ∧ key.FitsDepth) ∧ key.versions ∈ tableVersions ∧
        text = key.text := by
  rw [parse, decode_eq_ok_iff fun _ _ _ => word_of_findVersions?]
  constructor
  · rintro ⟨proper, found, written⟩
    exact ⟨proper, mem_of_findVersions? found, written⟩
  · rintro ⟨proper, listed, written⟩
    exact ⟨proper, findVersions?_word listed key.form, written⟩

theorem parseWith_eq_ok_iff {versions : KeyVersions} {text : String}
    {key : ExtendedKey} :
    parseWith versions text = .ok key ↔
      (key.HasShortKey ∧ key.FitsDepth) ∧
        (key.versions = versions ∧
          versions.form? (versions.word key.form) = some key.form) ∧
        text = key.text := by
  have resolved (word : UInt32) (found : KeyVersions) (form : KeyForm) :
      (versions.form? word).map (fun form => (versions, form)) =
          some (found, form) ↔
        found = versions ∧ versions.form? word = some form := by
    simp only [Option.map_eq_some_iff, Prod.mk.injEq]
    constructor
    · rintro ⟨own, ownFound, rfl, rfl⟩
      exact ⟨rfl, ownFound⟩
    · rintro ⟨rfl, ownFound⟩
      exact ⟨form, ownFound, rfl, rfl⟩
  rw [parseWith, decode_eq_ok_iff, resolved]
  · constructor
    · rintro ⟨proper, ⟨rfl, found⟩, written⟩
      exact ⟨proper, ⟨rfl, found⟩, written⟩
    · rintro ⟨proper, ⟨rfl, found⟩, written⟩
      exact ⟨proper, ⟨rfl, found⟩, written⟩
  · intro word found form hit
    obtain ⟨rfl, ownFound⟩ := (resolved word found form).mp hit
    exact KeyVersions.word_of_form? ownFound

theorem parseWith_text_of_not_fitsDepth {key : ExtendedKey}
    (broken : ¬key.FitsDepth) :
    parseWith key.versions key.text = .error .invalidRootFields := by
  obtain ⟨form, found⟩ := key.versions.exists_form?_word key.form
  apply decode_text_of_not_fitsDepth broken
  rw [found]
  rfl

/-- A reader of extended keys: under any version words of the table or under
given ones. -/
def IsReader (read : String → Except DerivationError ExtendedKey) : Prop :=
  read = parse ∨ ∃ versions, read = parseWith versions

theorem text_of_read {read : String → Except DerivationError ExtendedKey}
    (reader : IsReader read) {text : String} {key : ExtendedKey}
    (found : read text = .ok key) : key.text = text := by
  rcases reader with rfl | ⟨versions, rfl⟩
  · exact (parse_eq_ok_iff.mp found).2.2.symm
  · exact (parseWith_eq_ok_iff.mp found).2.2.symm

theorem eq_privateNode_of_expectPrivate {key : ExtendedKey} {node : PrivateNode}
    (found : key.expectPrivate = .ok node) : key = privateNode node := by
  cases key with
  | privateNode own =>
      cases found
      rfl
  | publicNode own =>
      cases found

theorem eq_publicNode_of_expectPublic {key : ExtendedKey} {node : PublicNode}
    (found : key.expectPublic = .ok node) : key = publicNode node := by
  cases key with
  | privateNode own =>
      cases found
  | publicNode own =>
      cases found
      rfl

/-- Extended keys and texts correspond one to one: a text that is written is
read as what was written, a text that is read, in either form or in the one that
is asked for, is the one that is written, and a node at the top with a parent or
a number is refused. -/
theorem text_bijective (key : ExtendedKey) (text : String)
    (read : String → Except DerivationError ExtendedKey) :
    (key.HasShortKey → key.FitsDepth →
        (key.versions.Distinct → parseWith key.versions key.text = .ok key) ∧
          (key.versions ∈ tableVersions → parse key.text = .ok key)) ∧
      (¬key.FitsDepth →
        parseWith key.versions key.text = .error .invalidRootFields ∧
          (key.versions ∈ tableVersions →
            parse key.text = .error .invalidRootFields)) ∧
      (IsReader read →
        (read text = .ok key → key.text = text) ∧
          (∀ node, (read text >>= expectPrivate) = .ok node → node.text = text) ∧
          ∀ node, (read text >>= expectPublic) = .ok node → node.text = text) := by
  refine ⟨fun short fits => ⟨?_, ?_⟩, fun broken => ⟨?_, ?_⟩,
    fun reader => ⟨?_, ?_, ?_⟩⟩
  · intro distinct
    exact
      parseWith_eq_ok_iff.mpr
        ⟨⟨short, fits⟩, ⟨rfl, KeyVersions.form?_word distinct key.form⟩, rfl⟩
  · intro listed
    exact parse_eq_ok_iff.mpr ⟨⟨short, fits⟩, listed, rfl⟩
  · exact parseWith_text_of_not_fitsDepth broken
  · intro listed
    exact
      decode_text_of_not_fitsDepth broken (findVersions?_word listed key.form)
  · exact text_of_read reader
  · intro node found
    obtain ⟨own, ownRead, expected⟩ := bind_eq_ok_iff.mp found
    cases eq_privateNode_of_expectPrivate expected
    exact text_of_read reader ownRead
  · intro node found
    obtain ⟨own, ownRead, expected⟩ := bind_eq_ok_iff.mp found
    cases eq_publicNode_of_expectPublic expected
    exact text_of_read reader ownRead

/-- A private node whose payload is zero but for its last octet. -/
def unitTop : PrivateNode where
  versions := ⟨1, 0⟩
  depth := 0
  parentFingerprint := 0
  childNumber := 0
  chainCode := Block.ofNat 32 0
  key := PrivateKey.ofScalar Scalar.one true

/-- A public node at the top with a number. -/
def numberedTop : PublicNode where
  versions := .zpub
  depth := 0
  parentFingerprint := 0
  childNumber := 1
  chainCode := Block.ofNat 32 0
  key := ⟨Point.generator, true⟩

/-- The public top of the tree of the octets from zero to fifteen. -/
def publicTopText : String :=
  "xpub661MyMwAqRbcFtXgS5sYJABqqG9YLmC4Q1Rdap9gSE8NqtwybGhePY2gZ29ESFjqJoCu1Rupje8YtGqsefD265TMg7usUDFdp6W1EGMcet8"

/-- A payload that begins with zeros, a node that is refused, and a text that is
read. -/
theorem text_bijective_extreme :
    ((privateNode unitTop).HasShortKey ∧ (privateNode unitTop).FitsDepth ∧
        unitTop.versions.Distinct ∧
        parseWith ⟨1, 0⟩ unitTop.text = .ok (privateNode unitTop)) ∧
      (¬(publicNode numberedTop).FitsDepth ∧
        numberedTop.versions ∈ tableVersions ∧
        parse numberedTop.text = .error .invalidRootFields) ∧
      ∃ key, parse publicTopText = .ok key ∧ key.text = publicTopText := by
  have short : (privateNode unitTop).HasShortKey :=
    rfl
  have fits : (privateNode unitTop).FitsDepth :=
    Or.inr ⟨rfl, rfl⟩
  have distinct : unitTop.versions.Distinct := by
    unfold KeyVersions.Distinct
    decide
  have broken : ¬(publicNode numberedTop).FitsDepth := by
    unfold FitsDepth
    decide
  have listed : numberedTop.versions ∈ tableVersions := by
    decide
  have accepted : (parse publicTopText).toOption.isSome := by
    decide +kernel
  refine
    ⟨⟨short, fits, distinct,
        ((text_bijective (privateNode unitTop) "" parse).1 short fits).1 distinct⟩,
      ⟨broken, listed,
        ((text_bijective (publicNode numberedTop) "" parse).2.1 broken).2 listed⟩,
      ?_⟩
  obtain ⟨key, found⟩ := exists_eq_ok_of_isSome accepted
  exact ⟨key, found, ((text_bijective key _ parse).2.2 (Or.inl rfl)).1 found⟩

end ExtendedKey

end WalletKeys
