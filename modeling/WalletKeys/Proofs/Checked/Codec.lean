import WalletKeys.Codec.Base58
import WalletKeys.Codec.CashAddr
import WalletKeys.Codec.Segwit
import WalletKeys.Proofs.Checked.Cut
import WalletKeys.Proofs.Codec.Base32
import WalletKeys.Proofs.Codec.Checksum
import WalletKeys.Proofs.Codec.WordStream

/-!
# Texts are cut where they can be

The readers of checked Base58, segwit and CashAddr are run once more with cuts, digits
and differences that may be missing. What a reader has checked before it cuts is what
makes the cut possible: a segwit text is cut at the mark that was found in it, symbols
lose their checksum once the text was longer than one (`Base32.octetCount_of_symbols`),
and a word is drained only while it holds a whole symbol (`WordStream.drain?_eq`).
-/

namespace WalletKeys

/-- The checksum, octet by octet of the double digest. -/
def checksum? (payload : Octets) : Option (Block 4) :=
  (firstFour? (doubleSha256 payload).octets).bind (Block.ofOctets? 4)

theorem checksum?_eq (payload : Octets) : checksum? payload = some (checksum payload) := by
  have enough : 4 ≤ (doubleSha256 payload).octets.length := by
    rw [Block.length_octets]
    decide
  rw [checksum?, firstFour?_eq enough]
  exact Block.ofOctets?_eq (checksum payload).length_octets

namespace Base58

def decodeChecked? (text : String) : Checked CodecError Octets := do
  let octets ← decode text
  require (4 ≤ octets.length) (CodecError.invalidLength octets.length)
  let split ← Modular.difference? octets.length 4
  let payload ← slice? 0 split octets
  let expected ← checksum? payload
  let given ← slice? split octets.length octets
  require (expected.octets = given) CodecError.checksumMismatch
  return payload

theorem decodeChecked?_eq (text : String) :
    decodeChecked? text = liftM (decodeChecked text) := by
  refine Checked.bind_eq_liftM fun octets _ => ?_
  refine Checked.bind_eq_liftM fun _ long => ?_
  have enough : 4 ≤ octets.length :=
    require_eq_ok_iff.mp long
  rw [Checked.bind_of_eq_some (Modular.difference?_eq enough),
    Checked.bind_of_eq_some (slice?_front (Nat.sub_le ..)),
    Checked.bind_of_eq_some (checksum?_eq _),
    Checked.bind_of_eq_some (slice?_back (Nat.sub_le ..))]
  exact Checked.bind_eq_liftM fun _ _ => rfl

end Base58

namespace WordStream

/-- The low `target` bits of a word. -/
def mask? (target : ℕ) : Option UInt32 :=
  wordDifference? (1 <<< UInt32.ofNat target) 1

theorem mask?_eq (target : ℕ) :
    mask? target = some ((1 <<< UInt32.ofNat target) - 1) :=
  wordDifference?_eq (one_le_shiftLeft _)

/-- Puts out the bits under a mask for as long as there are bits for a symbol. -/
def drain? (mask : UInt32) (target : ℕ) (stream : WordStream) : Option WordStream :=
  if enough : 0 < target ∧ target ≤ stream.count then
    match left : Modular.difference? stream.count target with
    | none => none
    | some count =>
        have : count < stream.count := Modular.lt_of_difference? enough.1 left
        drain? mask target
          ⟨(stream.word >>> UInt32.ofNat count &&& mask).toUInt8 :: stream.latestFirst,
            stream.word, count⟩
  else some stream
termination_by stream.count

def push? (mask : UInt32) (source target : ℕ) (stream : WordStream) (symbol : UInt8) :
    Checked CodecError WordStream := do
  require (symbol.toUInt32 >>> UInt32.ofNat source = 0) CodecError.invalidPadding
  drain? mask target (stream.shiftIn source symbol)

def last? (mask : UInt32) (target : ℕ) (stream : WordStream) : Option UInt8 := do
  let gap ← Modular.difference? target stream.count
  return (stream.word <<< UInt32.ofNat gap &&& mask).toUInt8

/-- The bits left over are looked at where the answer depends on them. -/
def finish? (mask : UInt32) (source target : ℕ) (pad : Bool) (stream : WordStream) :
    Checked CodecError (List UInt8) := do
  if pad then
    if 0 < stream.count then
      let last ← stream.last? mask target
      return stream.latestFirst.reverse ++ [last]
    else return stream.latestFirst.reverse
  else if source ≤ stream.count then throw .invalidPadding
  else
    let last ← stream.last? mask target
    if last ≠ 0 then throw .invalidPadding else return stream.latestFirst.reverse

variable {source target : ℕ}

theorem drain?_eq (stream : WordStream) :
    drain? ((1 <<< UInt32.ofNat target) - 1) target stream =
      some (drain target stream) := by
  fun_induction drain target stream with
  | case1 stream enough count inductionHypothesis =>
      have less := Modular.difference?_eq enough.2
      rw [drain?, dif_pos enough]
      split
      · next missing =>
          rw [less] at missing
          cases missing
      · next left =>
          rw [less] at left
          cases left
          exact inductionHypothesis
  | case2 stream few =>
      rw [drain?, dif_neg few]

/-- Too few bits are left over for a symbol. -/
theorem count_drain_lt (positive : 0 < target) (stream : WordStream) :
    (drain target stream).count < target := by
  fun_induction drain target stream with
  | case1 stream enough count inductionHypothesis =>
      exact inductionHypothesis
  | case2 stream few =>
      omega

theorem push?_eq (stream : WordStream) (symbol : UInt8) :
    push? ((1 <<< UInt32.ofNat target) - 1) source target stream symbol =
      liftM (push source target stream symbol) := by
  refine Checked.bind_eq_liftM fun _ _ => ?_
  rw [drain?_eq]
  rfl

theorem count_lt_of_foldlM_push (positive : 0 < target) {symbols : List UInt8}
    {stream : WordStream}
    (read : symbols.foldlM (push source target) start = .ok stream) :
    stream.count < target := by
  refine
    foldlM_induction (motive := fun _ stream => stream.count < target) positive ?_ read
  intro _ here symbol next _ pushed
  obtain ⟨-, same⟩ := require_bind_eq_ok_iff.mp pushed
  cases same
  exact count_drain_lt positive _

theorem finish?_eq {stream : WordStream} (few : stream.count < target) (pad : Bool) :
    finish? ((1 <<< UInt32.ofNat target) - 1) source target pad stream =
      liftM (stream.finish source target pad) := by
  have left :
      stream.last? ((1 <<< UInt32.ofNat target) - 1) target =
        some (stream.last target) := by
    rw [last?, Modular.difference?_eq few.le]
    rfl
  unfold finish? finish
  cases pad with
  | true =>
      simp only [if_true, left]
      split
      · rfl
      · rw [List.append_nil]
        rfl
  | false =>
      simp only [Bool.false_eq_true, if_false, left]
      by_cases many : source ≤ stream.count
      · rw [if_pos many, if_pos (Or.inl many)]
        rfl
      · by_cases remains : stream.last target ≠ 0
        · rw [if_neg many, if_pos (Or.inr remains)]
          exact if_pos remains
        · rw [if_neg many, if_neg (not_or.mpr ⟨many, remains⟩)]
          exact if_neg remains

end WordStream

/-- Regroups symbols in a word of 32 bits. -/
def regroup? (source target : ℕ) (pad : Bool) (symbols : List UInt8) :
    Checked CodecError (List UInt8) := do
  let mask ← WordStream.mask? target
  let stream ← symbols.foldlM (WordStream.push? mask source target) WordStream.start
  stream.finish? mask source target pad

theorem regroup?_eq {source target : ℕ} (sourceNarrow : source ≤ 8)
    (positive : 0 < target) (narrow : target ≤ 8) (pad : Bool)
    (symbols : List UInt8) :
    regroup? source target pad symbols = liftM (regroup source target pad symbols) := by
  rw [← regroupInWord_eq sourceNarrow positive narrow, regroup?,
    Checked.bind_of_eq_some (WordStream.mask?_eq target),
    Checked.foldlM_liftM WordStream.push?_eq]
  refine Checked.bind_eq_liftM fun stream read => ?_
  exact WordStream.finish?_eq (WordStream.count_lt_of_foldlM_push positive read) pad

namespace ChecksumCode

/-- Takes in one symbol, where the symbol that leaves stands `shift` bits above the
others. -/
def pushBy (code : ChecksumCode) (shift mask remainder : UInt64) (symbol : UInt8) :
    UInt64 :=
  (((remainder &&& mask) <<< 5) ^^^ symbol.toUInt64) ^^^
    code.reduction (remainder >>> shift)

def remainder? (code : ChecksumCode) (symbols : List UInt8) : Option UInt64 := do
  let others ← Modular.difference? code.width 1
  let shift := UInt64.ofNat (5 * others)
  let mask ← wordDifference? (1 <<< shift) 1
  return symbols.foldl (code.pushBy shift mask) 1

def verify? (code : ChecksumCode) (lead data : List UInt8) : Option Bool :=
  (code.remainder? (lead ++ data)).map (· == 1)

theorem verify?_eq {code : ChecksumCode} (wide : 1 ≤ code.width)
    (lead data : List UInt8) :
    code.verify? lead data = some (code.verify lead data) := by
  have mask :
      wordDifference? (1 <<< code.shift) 1 = some ((1 <<< code.shift) - 1) :=
    wordDifference?_eq (one_le_shiftLeft _)
  rw [verify?, remainder?, Modular.difference?_eq wide, Option.bind_eq_bind,
    Option.bind_some]
  change Option.map _ (wordDifference? (1 <<< code.shift) 1 >>= _) = _
  rw [mask]
  rfl

end ChecksumCode

/-- Symbols that are read have as many octets as there are of them. -/
theorem Base32.octetCount_of_symbols {characters : List Char} {symbols : List UInt8}
    (read : Base32.symbols characters = .ok symbols) :
    Text.octetCount characters = symbols.length := by
  obtain ⟨-, rfl⟩ := Base32.symbols_eq_ok_iff.mp read
  rw [← Base32.length_ofText_characters symbols, Text.length_ofText,
    String.toList_ofList]

namespace Segwit

/-- The version is the first of the symbols, which is taken without a look at their
number. -/
def readData? (symbols : List UInt8) : Checked CodecError (UInt8 × Octets) := do
  let version ← (symbols[0]? : Option UInt8)
  let rest ← slice? 1 symbols.length symbols
  let program ← regroup? 5 8 false rest
  checkProgram version program
  return (version, program)

def decode? (expectedTag address : String) : Checked CodecError (UInt8 × Octets) := do
  let address ← Base32.normalizeCase address
  let characters := address.toList
  let place ← demand (Text.lastPlace? '1' characters) CodecError.missingSeparator
  let before ← Text.cut? place characters
  let behind ← Text.cut? (place + 1) characters
  let tag := String.ofList before.1
  let width := ChecksumCode.segwit.width
  let size := Text.octetCount characters
  require (tag = Text.lowercase expectedTag) (CodecError.unexpectedTag tag)
  require (width < Text.octetCount behind.2 ∧ size ≤ longest)
    (CodecError.invalidLength size)
  let symbols ← Base32.symbols behind.2
  let verified ← ChecksumCode.segwit.verify? (expandTag tag) symbols
  require verified CodecError.checksumMismatch
  let count ← Modular.difference? symbols.length width
  let payload ← slice? 0 count symbols
  readData? payload

theorem readData?_eq {symbols : List UInt8} (nonempty : 0 < symbols.length) :
    readData? symbols = liftM (readData symbols) := by
  cases symbols with
  | nil =>
      cases nonempty
  | cons version rest =>
      have behind : slice? 1 (version :: rest).length (version :: rest) = some rest :=
        slice?_back nonempty
      rw [readData?, Checked.bind_of_eq_some (List.getElem?_cons_zero ..),
        Checked.bind_of_eq_some behind,
        regroup?_eq (by decide) (by decide) (by decide)]
      refine Checked.bind_eq_liftM fun program _ => ?_
      exact Checked.bind_eq_liftM fun _ _ => rfl

theorem decode?_eq (expectedTag address : String) :
    decode? expectedTag address = liftM (decode expectedTag address) := by
  refine Checked.bind_eq_liftM fun small _ => ?_
  simp only [Text.lastPlace?_eq, Text.length_ofText, String.toList_ofList]
  cases found : Text.splitLast? '1' small.toList with
  | none =>
      rfl
  | some parts =>
      rw [Option.map_some, demand_some, demand_some, Checked.liftM_ok, pure_bind, ok_bind,
        Checked.bind_of_eq_some (Text.cut?_before found),
        Checked.bind_of_eq_some (Text.cut?_behind rfl found)]
      refine Checked.bind_eq_liftM fun _ _ => ?_
      refine Checked.bind_eq_liftM fun _ fits => ?_
      refine Checked.bind_eq_liftM fun symbols read => ?_
      rw [Checked.bind_of_eq_some (ChecksumCode.verify?_eq (by decide) _ _)]
      refine Checked.bind_eq_liftM fun _ _ => ?_
      -- What was counted in octets of the text holds of the symbols.
      have enough := (require_eq_ok_iff.mp fits).1
      rw [Base32.octetCount_of_symbols read] at enough
      rw [Checked.bind_of_eq_some (Modular.difference?_eq enough.le),
        Checked.bind_of_eq_some (slice?_front (Nat.sub_le ..))]
      exact readData?_eq (by rw [List.length_take]; omega)

end Segwit

namespace CashAddr

def decode? (expectedTag address : String) : Checked CodecError (UInt8 × Octets) := do
  let address ← Base32.normalizeCase address
  let tag := Text.lowercase expectedTag
  let body ← body tag address
  let size := Text.octetCount body
  let width := ChecksumCode.cashAddr.width
  require (width < size) (CodecError.invalidLength size)
  let symbols ← Base32.symbols body
  let verified ← ChecksumCode.cashAddr.verify? (expandTag tag) symbols
  require verified CodecError.checksumMismatch
  let count ← Modular.difference? symbols.length width
  let payload ← slice? 0 count symbols
  let octets ← regroup? 5 8 false payload
  readData octets

theorem decode?_eq (expectedTag address : String) :
    decode? expectedTag address = liftM (decode expectedTag address) := by
  refine Checked.bind_eq_liftM fun small _ => ?_
  refine Checked.bind_eq_liftM fun body _ => ?_
  simp only [Text.length_ofText, String.toList_ofList]
  refine Checked.bind_eq_liftM fun _ fits => ?_
  refine Checked.bind_eq_liftM fun symbols read => ?_
  rw [Checked.bind_of_eq_some (ChecksumCode.verify?_eq (by decide) _ _)]
  refine Checked.bind_eq_liftM fun _ _ => ?_
  have enough := require_eq_ok_iff.mp fits
  rw [Base32.octetCount_of_symbols read] at enough
  rw [Checked.bind_of_eq_some (Modular.difference?_eq enough.le),
    Checked.bind_of_eq_some (slice?_front (Nat.sub_le ..)),
    regroup?_eq (by decide) (by decide) (by decide)]
  exact Checked.bind_eq_liftM fun octets _ => rfl

end CashAddr

end WalletKeys
