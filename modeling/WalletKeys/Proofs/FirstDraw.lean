import WalletKeys.Ecdsa.Sign
import WalletKeys.Proofs.KeyPair

/-!
# The first block that is accepted

A scalar is drawn, and a signature is made, from the first block of the random
source that admits it (`Draws.first?`, `Scalar.draw?_eq_first?`,
`Ecdsa.sign?_eq_first?`). What is skipped admits nothing, and what comes later
is left untouched (`Draws.TakesFirst`, `Scalar.draw?_eq_some_iff`). Where what a
search has found may still be refused, the search that goes on behind it is one
search with both conditions (`Draws.first?_bind`).
-/

namespace WalletKeys

open Secp256k1

namespace Draws

variable {Drawn Made : Type}

/-- What is made of the first block that admits it, and what the source still
has to give. -/
def first? (make? : Block 32 → Option Made) : Draws → Option (Made × Draws)
  | [] => none
  | block :: rest =>
      match make? block with
      | some made => some (made, rest)
      | none => first? make? rest

/-- The block is the first of the source that is accepted, and the rest is what
stands behind it. -/
def TakesFirst (Accepted : Block 32 → Prop) (draws : Draws) (block : Block 32)
    (rest : Draws) : Prop :=
  ∃ skipped,
    draws = skipped ++ block :: rest ∧
      (∀ other ∈ skipped, ¬Accepted other) ∧ Accepted block

namespace TakesFirst

variable {Accepted : Block 32 → Prop} {draws rest : Draws} {block : Block 32}

theorem accepted (taken : TakesFirst Accepted draws block rest) :
    Accepted block := by
  obtain ⟨-, -, -, accepted⟩ := taken
  exact accepted

theorem length_lt (taken : TakesFirst Accepted draws block rest) :
    rest.length < draws.length := by
  obtain ⟨skipped, rfl, -, -⟩ := taken
  rw [List.length_append, List.length_cons]
  omega

/-- Whatever stands behind the block instead, the same block is taken. -/
theorem replace {used : Draws}
    (taken : TakesFirst Accepted (used ++ rest) block rest) (later : Draws) :
    TakesFirst Accepted (used ++ later) block later := by
  obtain ⟨skipped, split, refused, accepted⟩ := taken
  rw [List.append_cons] at split
  refine ⟨skipped, ?_, refused, accepted⟩
  rw [List.append_cancel_right split, ← List.append_cons]

end TakesFirst

section Search

variable {make? : Block 32 → Option Made} {Accepted : Block 32 → Prop}

/-- The search finds the first block that is accepted, and only what is made of
it. -/
theorem first?_eq_some_iff
    (admits : ∀ block, (make? block).isSome = true ↔ Accepted block)
    {draws rest : Draws} {made : Made} :
    first? make? draws = some (made, rest) ↔
      ∃ block,
        TakesFirst Accepted draws block rest ∧ make? block = some made := by
  constructor
  · intro found
    induction draws with
    | nil =>
        cases found
    | cons block others inductionHypothesis =>
        rw [first?] at found
        cases own : make? block with
        | some value =>
            rw [own] at found
            cases found
            have accepted : Accepted block :=
              (admits block).mp (Option.isSome_of_eq_some own)
            exact ⟨block, ⟨[], rfl, List.forall_mem_nil _, accepted⟩, own⟩
        | none =>
            rw [own] at found
            obtain ⟨taken, ⟨skipped, rfl, refused, accepted⟩, made⟩ :=
              inductionHypothesis found
            have ownRefused : ¬Accepted block := by
              rw [← admits, own]
              exact Bool.false_ne_true
            exact
              ⟨taken,
                ⟨block :: skipped, rfl,
                  List.forall_mem_cons.mpr ⟨ownRefused, refused⟩, accepted⟩,
                made⟩
  · rintro ⟨block, ⟨skipped, rfl, refused, -⟩, made⟩
    induction skipped with
    | nil =>
        rw [List.nil_append, first?, made]
    | cons other skipped inductionHypothesis =>
        obtain ⟨own, others⟩ := List.forall_mem_cons.mp refused
        rw [← admits, Option.not_isSome_iff_eq_none] at own
        rw [List.cons_append, first?, own]
        exact inductionHypothesis others

theorem first?_eq_none_iff
    (admits : ∀ block, (make? block).isSome = true ↔ Accepted block)
    {draws : Draws} :
    first? make? draws = none ↔ ∀ block ∈ draws, ¬Accepted block := by
  induction draws with
  | nil =>
      simp [first?]
  | cons block rest inductionHypothesis =>
      rw [List.forall_mem_cons, ← inductionHypothesis, ← admits, first?]
      cases make? block with
      | none =>
          simp
      | some made =>
          simp

end Search

/-- What is found may be refused; the search then goes on behind it. -/
theorem first?_bind (find? : Block 32 → Option Drawn)
    (use? : Drawn → Option Made) (draws : Draws) :
    first? (fun block => (find? block).bind use?) draws =
      (first? find? draws).bind fun found =>
        (use? found.1).elim
          (first? (fun block => (find? block).bind use?) found.2)
          fun made => some (made, found.2) := by
  induction draws with
  | nil =>
      rfl
  | cons block rest inductionHypothesis =>
      cases found : find? block with
      | none =>
          simp only [first?, found, Option.bind_none]
          exact inductionHypothesis
      | some drawn =>
          simp only [first?, found, Option.bind_some]
          cases use? drawn <;> rfl

end Draws

/-- The number of the block is a scalar. -/
def Block.IsScalar (block : Block 32) : Prop :=
  1 ≤ block.toNat ∧ block.toNat < groupOrder

instance (block : Block 32) : Decidable block.IsScalar :=
  inferInstanceAs (Decidable (_ ∧ _))

namespace Scalar

theorem ofNat?_eq_some_iff {number : ℕ} {scalar : Scalar} :
    ofNat? number = some scalar ↔ scalar.value = number := by
  constructor
  · exact value_of_ofNat?
  · rintro rfl
    exact ofNat?_value scalar

theorem ofNat?_isSome_iff (block : Block 32) :
    (ofNat? block.toNat).isSome = true ↔ block.IsScalar := by
  rw [Option.isSome_iff_ne_none, ne_eq, ofNat?_eq_none_iff, not_not,
    inScalarRange_iff]
  rfl

theorem draw?_eq_first? (draws : Draws) :
    draw? draws = Draws.first? (fun block => ofNat? block.toNat) draws := by
  induction draws with
  | nil =>
      rfl
  | cons block rest inductionHypothesis =>
      rw [draw?, Draws.first?, inductionHypothesis]
      cases ofNat? block.toNat <;> rfl

theorem draw?_eq_some_iff {draws rest : Draws} {scalar : Scalar} :
    draw? draws = some (scalar, rest) ↔
      ∃ block,
        draws.TakesFirst Block.IsScalar block rest ∧
          scalar.value = block.toNat := by
  simp only [draw?_eq_first?, Draws.first?_eq_some_iff ofNat?_isSome_iff,
    ofNat?_eq_some_iff]

theorem draw?_eq_none_iff {draws : Draws} :
    draw? draws = none ↔ ∀ block ∈ draws, ¬block.IsScalar := by
  rw [draw?_eq_first?, Draws.first?_eq_none_iff ofNat?_isSome_iff]

theorem length_lt_of_draw? {draws rest : Draws} {scalar : Scalar}
    (drawn : draw? draws = some (scalar, rest)) :
    rest.length < draws.length := by
  obtain ⟨block, taken, -⟩ := draw?_eq_some_iff.mp drawn
  exact taken.length_lt

end Scalar

theorem Ecdsa.sign?_eq_first? (key : PrivateKey) (digest : Octets)
    (draws : Draws) :
    sign? key digest draws = Draws.first? (attempt? key digest) draws := by
  induction draws with
  | nil =>
      rfl
  | cons block rest inductionHypothesis =>
      rw [sign?, Draws.first?, inductionHypothesis]
      cases attempt? key digest block <;> rfl

end WalletKeys
