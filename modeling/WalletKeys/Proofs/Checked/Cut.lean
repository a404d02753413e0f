import WalletKeys.Octets
import WalletKeys.Proofs.Text
import WalletKeys.Require

/-!
# Parts and differences that are there

A list is clamped when it is cut beyond its end, and a difference of natural numbers
stops at zero, so that a cut at a wrong place, or a difference that is taken the wrong
way round, would go unnoticed. Here a part is missing if a bound lies outside the list
(`slice?`), a difference if it would be below zero (`Modular.difference?`), and a text
is cut at a count of its octets, which has to lie between two characters
(`Text.cut?`). A run that takes such parts and differences is the run without them
where each of them is there (`Checked.bind_eq_liftM`, `Checked.bind_of_eq_some`).
-/

namespace WalletKeys

/-- A run that may end in an error, or break off where something is missing. -/
abbrev Checked (error : Type) : Type → Type :=
  ExceptT error Option

namespace Checked

variable {error value result : Type}

/-- What takes nothing that could be missing does not break off. -/
instance : MonadLift (Except error) (Checked error) where
  monadLift outcome := ExceptT.mk (some outcome)

theorem run_liftM (outcome : Except error value) :
    (liftM outcome : Checked error value).run = some outcome :=
  rfl

@[simp]
theorem liftM_ok (present : value) :
    (liftM (Except.ok present : Except error value) : Checked error value) =
      pure present :=
  rfl

@[simp]
theorem liftM_some (present : value) :
    (liftM (some present) : Checked error value) = pure present :=
  rfl

@[simp]
theorem liftM_bind (first : Except error value)
    (next : value → Except error result) :
    (liftM (first >>= next) : Checked error result) =
      liftM first >>= fun middle => liftM (next middle) := by
  cases first <;> rfl

@[simp]
theorem adapt_liftM {other : Type} (change : error → other)
    (outcome : Except error value) :
    (liftM outcome : Checked error value).adapt change =
      liftM (outcome.mapError change) := by
  cases outcome <;> rfl

/-- What follows a step has to be the same only where the step gives a value. -/
theorem bind_eq_liftM {first : Except error value} {next : value → Except error result}
    {run : value → Checked error result}
    (same : ∀ middle, first = .ok middle → run middle = liftM (next middle)) :
    (liftM first >>= run) = liftM (first >>= next) := by
  cases first with
  | error failure =>
      rfl
  | ok middle =>
      exact same middle rfl

theorem bind_of_eq_some {candidate : Option value} {present : value}
    (found : candidate = some present) (run : value → Checked error result) :
    (liftM candidate >>= run) = run present := by
  rw [found]
  rfl

theorem mapM_liftM {element : Type} (read : element → Except error value)
    (elements : List element) :
    elements.mapM (fun element => (liftM (read element) : Checked error value)) =
      liftM (elements.mapM read) := by
  induction elements with
  | nil =>
      rfl
  | cons element rest inductionHypothesis =>
      rw [List.mapM_cons, List.mapM_cons, inductionHypothesis]
      refine bind_eq_liftM fun own _ => ?_
      exact bind_eq_liftM fun others _ => rfl

theorem foldlM_liftM {state element : Type}
    {run : state → element → Checked error state}
    {step : state → element → Except error state}
    (same : ∀ here element, run here element = liftM (step here element))
    (elements : List element) (start : state) :
    elements.foldlM run start = liftM (elements.foldlM step start) := by
  induction elements generalizing start with
  | nil =>
      rfl
  | cons element rest inductionHypothesis =>
      rw [List.foldlM_cons, List.foldlM_cons, same]
      exact bind_eq_liftM fun next _ => inductionHypothesis next

end Checked

/-- A difference, if it is not below zero. -/
def Modular.difference? (minuend subtrahend : ℕ) : Option ℕ :=
  if subtrahend ≤ minuend then some (minuend - subtrahend) else none

theorem Modular.difference?_eq {minuend subtrahend : ℕ}
    (ordered : subtrahend ≤ minuend) :
    difference? minuend subtrahend = some (minuend - subtrahend) :=
  if_pos ordered

theorem Modular.lt_of_difference? {minuend subtrahend difference : ℕ}
    (positive : 0 < subtrahend)
    (found : difference? minuend subtrahend = some difference) :
    difference < minuend := by
  rw [difference?, Option.ite_none_right_eq_some] at found
  obtain ⟨ordered, same⟩ := found
  cases same
  exact Nat.sub_lt_of_pos_le positive ordered

/-- A difference of words, if it is not below zero. -/
def wordDifference? {word : Type} [LE word] [DecidableLE word] [Sub word]
    (minuend subtrahend : word) : Option word :=
  if subtrahend ≤ minuend then some (minuend - subtrahend) else none

theorem wordDifference?_eq {word : Type} [LE word] [DecidableLE word] [Sub word]
    {minuend subtrahend : word} (ordered : subtrahend ≤ minuend) :
    wordDifference? minuend subtrahend = some (minuend - subtrahend) :=
  if_pos ordered

section Slice

variable {element : Type} {start stop : ℕ}

/-- The elements from one place up to another. -/
def slice? (start stop : ℕ) (elements : List element) : Option (List element) :=
  if start ≤ stop ∧ stop ≤ elements.length then some ((elements.take stop).drop start)
  else none

theorem slice?_front {elements : List element} (inside : stop ≤ elements.length) :
    slice? 0 stop elements = some (elements.take stop) :=
  if_pos ⟨Nat.zero_le stop, inside⟩

theorem slice?_back {elements : List element} (inside : start ≤ elements.length) :
    slice? start elements.length elements = some (elements.drop start) := by
  rw [slice?, if_pos ⟨inside, le_rfl⟩, List.take_length]

/-- So many elements from a place on. -/
theorem slice?_middle {count : ℕ} {elements : List element}
    (inside : start + count ≤ elements.length) :
    slice? start (start + count) elements = some ((elements.drop start).take count) := by
  rw [slice?, if_pos ⟨Nat.le_add_right start count, inside⟩, List.drop_take,
    Nat.add_sub_cancel_left]

end Slice

/-- The first four octets, one by one. -/
def firstFour? (octets : Octets) : Option Octets := do
  let first ← octets[0]?
  let second ← octets[1]?
  let third ← octets[2]?
  let fourth ← octets[3]?
  return [first, second, third, fourth]

theorem firstFour?_eq {octets : Octets} (enough : 4 ≤ octets.length) :
    firstFour? octets = some (octets.take 4) := by
  match octets, enough with
  | _ :: _ :: _ :: _ :: _, _ =>
      rfl

theorem Block.ofOctets?_eq {size : ℕ} {octets : Octets} (length : octets.length = size) :
    Block.ofOctets? size octets = some ⟨octets, length⟩ :=
  dif_pos length

namespace Text

/-- How many octets there are before the last separator. -/
def lastPlace? (separator : Char) : List Char → Option ℕ
  | [] => none
  | character :: rest =>
      match lastPlace? separator rest with
      | some place => some (character.utf8Size + place)
      | none => if character = separator then some 0 else none

theorem lastPlace?_eq (separator : Char) (characters : List Char) :
    lastPlace? separator characters =
      (splitLast? separator characters).map fun parts => octetCount parts.1 := by
  induction characters with
  | nil =>
      rfl
  | cons character rest inductionHypothesis =>
      rw [lastPlace?, splitLast?, inductionHypothesis]
      cases splitLast? separator rest with
      | some parts =>
          rfl
      | none =>
          rw [Option.map_none, apply_ite (Option.map _)]
          rfl

section LastPlace

variable {separator : Char} {characters : List Char} {parts : List Char × List Char}

theorem cut?_before (found : splitLast? separator characters = some parts) :
    cut? (octetCount parts.1) characters = some (parts.1, separator :: parts.2) := by
  rw [eq_append_of_splitLast? found]
  exact cut?_append _ _

/-- A separator of one octet can be left out. -/
theorem cut?_behind (single : separator.utf8Size = 1)
    (found : splitLast? separator characters = some parts) :
    cut? (octetCount parts.1 + 1) characters =
      some (parts.1 ++ [separator], parts.2) := by
  rw [eq_append_of_splitLast? found, ← octetCount_concat single,
    List.append_cons parts.1 separator parts.2]
  exact cut?_append _ _

end LastPlace

/-- A last character of one octet can be cut off. -/
theorem cut?_concat {last : Char} (single : last.utf8Size = 1) (front : List Char) :
    cut? (octetCount (front ++ [last]) - 1) (front ++ [last]) = some (front, [last]) := by
  rw [octetCount_concat single, Nat.add_sub_cancel]
  exact cut?_append _ _

end Text

end WalletKeys
