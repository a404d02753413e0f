import Mathlib.Data.List.DropRight
import WalletKeys.Proofs.Codec.WordStream

/-!
# Groups of bits

What regrouping gives, read off the bits of all symbols in a row. These are cut into
groups of one width from the front (`groups`), and a group is the number that its bits
are, highest first (`ofBits`). With a filled end the groups of the bits and some zeros
come out (`regroupFilled_eq_groups`); without one the full groups do, if what is
behind them are too few zeros for a symbol (`exact_read_eq`). `regroup_groups` puts
this together.
-/

namespace WalletKeys

/-- The number with the given bits, highest first. -/
def ofBits : List Bool → ℕ
  | [] => 0
  | bit :: lower => bit.toNat * 2 ^ lower.length + ofBits lower

theorem ofBits_bits (width number : ℕ) :
    ofBits (bits width number) = number % 2 ^ width := by
  induction width with
  | zero =>
      rw [pow_zero, Nat.mod_one]
      rfl
  | succ width inductionHypothesis =>
      rw [bits, ofBits, length_bits, inductionHypothesis, Nat.toNat_testBit,
        Nat.mod_pow_succ, Nat.add_comm, Nat.mul_comm]

/-- The first `count` groups of `width` bits, each as a symbol. -/
def groups (width : ℕ) : (count : ℕ) → (stream : List Bool) → List UInt8
  | 0, _ => []
  | count + 1, stream =>
      UInt8.ofNat (ofBits (stream.take width)) ::
        groups width count (stream.drop width)

/-- The groups of the bits of symbols are these symbols, whatever stands behind. -/
theorem groups_symbolBits_append {width : ℕ} {symbols : List UInt8}
    (fit : SymbolsFit width symbols) (rest : List Bool) :
    groups width symbols.length (symbolBits width symbols ++ rest) = symbols := by
  induction symbols with
  | nil =>
      rfl
  | cons symbol symbols inductionHypothesis =>
      obtain ⟨fits, restFit⟩ := symbolsFit_cons_iff.mp fit
      rw [symbolBits_cons, List.append_assoc, List.length_cons, groups,
        List.take_left' (length_bits ..), List.drop_left' (length_bits ..), ofBits_bits,
        Nat.mod_eq_of_lt fits, UInt8.ofNat_toNat, inductionHypothesis restFit]

theorem forall_mem_bits_iff {width number : ℕ} (bound : number < 2 ^ width) :
    (∀ bit ∈ bits width number, bit = false) ↔ number = 0 := by
  constructor
  · intro zeros
    have same : bits width number = bits width 0 := by
      rw [bits_zero]
      exact List.eq_replicate_iff.mpr ⟨length_bits .., zeros⟩
    exact eq_of_bits_eq bound (Nat.two_pow_pos width) same
  · rintro rfl bit member
    rw [bits_zero] at member
    exact List.eq_of_mem_replicate member

section

variable {source target : ℕ} (positive : 0 < target) (narrow : target ≤ 8)
  {symbols : List UInt8} (fit : SymbolsFit source symbols)
include positive narrow fit

/-- With a filled end the groups of the bits and some zeros come out. -/
theorem regroupFilled_eq_groups :
    regroupFilled source target symbols =
      groups target ((source * symbols.length + (target - 1)) / target)
        (symbolBits source symbols ++ List.replicate target false) := by
  obtain ⟨filledFit, fill, bound, same⟩ := regroupFilled_spec positive narrow fit
  have zeros : target = fill + (target - fill) := by
    omega
  have cut :
      symbolBits source symbols ++ List.replicate target false =
        symbolBits target (regroupFilled source target symbols) ++
          List.replicate (target - fill) false := by
    rw [same, List.append_assoc, List.replicate_append_replicate, ← zeros]
  rw [cut, ← length_regroupFilled positive narrow fit,
    groups_symbolBits_append filledFit]

/-- The bits that are pending at the end are those behind the full groups. -/
theorem Regrouping.count_read :
    (read source target symbols).latestFirst.length =
        source * symbols.length / target ∧
      (read source target symbols).count = source * symbols.length % target := by
  have normal := isNormal_read positive narrow fit
  have lengths := congrArg List.length (bits_read positive narrow fit)
  rw [bits, List.length_append, length_symbolBits, length_symbolBits,
    List.length_reverse, length_bits] at lengths
  rw [← lengths, Nat.mul_add_div positive, Nat.mul_add_mod,
    Nat.div_eq_of_lt normal.count_lt, Nat.mod_eq_of_lt normal.count_lt]
  exact ⟨(Nat.add_zero _).symm, rfl⟩

/-- Without a filled end the full groups come out, if fewer bits than a symbol has
stand behind them and all of these are zeros. -/
theorem Regrouping.exact_read_eq :
    (read source target symbols).exact source =
      if source * symbols.length % target < source ∧
          ∀ bit ∈
            (symbolBits source symbols).rtake (source * symbols.length % target),
            bit = false then
        .ok
          (groups target (source * symbols.length / target)
            (symbolBits source symbols))
      else .error .invalidPadding := by
  obtain ⟨full, count⟩ := count_read positive narrow fit
  have stream := bits_read positive narrow fit
  obtain ⟨-, pendingBound, madeFit⟩ := isNormal_read positive narrow fit
  rw [← full, ← count, ← stream]
  generalize read source target symbols = last at *
  have behind :
      (last.bits target).rtake last.count =
        WalletKeys.bits last.count last.pending := by
    rw [bits, List.rtake, List.length_append, length_bits, Nat.add_sub_cancel,
      List.drop_left]
  have front :
      groups target last.latestFirst.length (last.bits target) =
        last.latestFirst.reverse := by
    rw [bits, ← List.length_reverse]
    exact groups_symbolBits_append madeFit.reverse _
  rw [behind, front, Regrouping.exact, ← ite_not]
  simp only [forall_mem_bits_iff pendingBound, not_or, not_le, not_not]

end

/-- Regrouping cuts the bits of all symbols in a row into groups, whatever the widths.
A word of 32 bits is enough for it. -/
theorem regroup_groups {source target : ℕ} (sourcePositive : 0 < source)
    (sourceNarrow : source ≤ 8) (positive : 0 < target) (narrow : target ≤ 8)
    (symbols : List UInt8) :
    let stream := symbolBits source symbols
    let size := source * symbols.length
    (¬SymbolsFit source symbols →
        ∀ pad, regroup source target pad symbols = .error .invalidPadding) ∧
      (SymbolsFit source symbols →
        regroup source target true symbols =
            .ok
              (groups target ((size + (target - 1)) / target)
                (stream ++ List.replicate target false)) ∧
          regroup source target false symbols =
            if size % target < source ∧
                ∀ bit ∈ stream.rtake (size % target), bit = false then
              .ok (groups target (size / target) stream)
            else .error .invalidPadding) ∧
      (SymbolsFit source symbols → target ≤ source →
        ∃ filled,
          regroup source target true symbols = .ok filled ∧
            regroup target source false filled = .ok symbols) ∧
      (∀ read, regroup target source false symbols = .ok read →
        regroup source target true read = .ok symbols) ∧
      ∀ pad, regroupInWord source target pad symbols =
        regroup source target pad symbols := by
  intro stream size
  refine ⟨regroup_of_not_fit, ?_, ?_, ?_, ?_⟩
  · intro fit
    rw [regroup_of_fit fit, regroup_of_fit fit, if_pos rfl,
      if_neg Bool.false_ne_true, regroupFilled_eq_groups positive narrow fit,
      Regrouping.exact_read_eq positive narrow fit]
    exact ⟨rfl, rfl⟩
  · intro fit narrower
    refine ⟨regroupFilled source target symbols, ?_, ?_⟩
    · rw [regroup_of_fit fit, if_pos rfl]
    · exact regroup_regroupFilled positive narrower sourceNarrow fit
  · intro read accepted
    obtain ⟨-, readFit, -⟩ := symbolBits_of_regroup sourcePositive sourceNarrow accepted
    rw [regroup_of_fit readFit, if_pos rfl,
      ← eq_regroupFilled_of_regroup positive narrow sourcePositive sourceNarrow accepted]
  · exact fun pad => regroupInWord_eq sourceNarrow positive narrow pad symbols

/-- An octet is filled up to two symbols of five bits, and only zeros fill it. -/
theorem regroup_groups_octet :
    regroup 8 5 true [255] = .ok [31, 28] ∧
      regroup 5 8 false [31, 28] = .ok [255] ∧
      regroup 5 8 false [31, 29] = .error .invalidPadding := by
  have octetFit : SymbolsFit 8 [255] :=
    symbolsFit_octets [255]
  have symbolsFit : SymbolsFit 5 [31, 29] := by
    simp [SymbolsFit]
  obtain ⟨-, groupsOfOctet, thereAndBack, -, -⟩ :=
    @regroup_groups 8 5 (by decide) (by decide) (by decide) (by decide) [255]
  obtain ⟨-, groupsOfSymbols, -, -, -⟩ :=
    @regroup_groups 5 8 (by decide) (by decide) (by decide) (by decide) [31, 29]
  have written : regroup 8 5 true [255] = .ok [31, 28] :=
    (groupsOfOctet octetFit).1.trans (by decide)
  obtain ⟨filled, same, read⟩ := thereAndBack octetFit (by decide)
  cases same.symm.trans written
  exact ⟨written, read, (groupsOfSymbols symbolsFit).2.trans (by decide)⟩

end WalletKeys
