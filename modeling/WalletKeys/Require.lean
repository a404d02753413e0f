/-!
# Conditions on the way to a result

Readers go through their conditions one after another, and the first that fails is the error.
`require_bind` and `demand_bind` say what a condition does to what follows it, `bind_eq_ok_iff` and
those after it what a result went through. `mapM_eq_ok_iff` and `mapM_eq_error_iff` are for readers
of lists and `foldlM_induction` for results that are reached step by step.
-/

namespace WalletKeys

variable {error value result : Type}

/-- Goes on if a condition holds. -/
def require (condition : Prop) [Decidable condition] (failure : error) : Except error Unit :=
  if condition then .ok () else .error failure

/-- Goes on with a value if there is one. -/
def demand (candidate : Option value) (failure : error) : Except error value :=
  match candidate with
  | some value => .ok value
  | none => .error failure

theorem ok_bind (present : value) (next : value → Except error result) :
    (Except.ok present >>= next) = next present :=
  rfl

theorem require_bind (condition : Prop) [Decidable condition] (failure : error)
    (next : Unit → Except error result) :
    (require condition failure >>= next) = if condition then next () else .error failure := by
  unfold require
  split <;> rfl

@[simp] theorem demand_some (present : value) (failure : error) :
    demand (some present) failure = .ok present :=
  rfl

@[simp] theorem demand_none (failure : error) :
    demand (none : Option value) failure = .error failure :=
  rfl

theorem demand_bind (candidate : Option value) (failure : error)
    (next : value → Except error result) :
    (demand candidate failure >>= next) = candidate.elim (.error failure) next := by
  cases candidate <;> rfl

/-! ## Results that are there -/

theorem exists_eq_ok_of_isSome {found : Except error value} (present : found.toOption.isSome) :
    ∃ last, found = .ok last := by
  cases found with
  | error failure => cases present
  | ok last => exact ⟨last, rfl⟩

theorem toOption_eq_some_iff {found : Except error value} {last : value} :
    found.toOption = some last ↔ found = .ok last := by
  cases found with
  | error failure => exact ⟨nofun, nofun⟩
  | ok middle =>
      exact ⟨fun same => congrArg Except.ok (Option.some.inj same), fun same => by cases same; rfl⟩

theorem bind_eq_ok_iff {first : Except error value} {next : value → Except error result}
    {last : result} :
    (first >>= next) = .ok last ↔ ∃ middle, first = .ok middle ∧ next middle = .ok last := by
  cases first with
  | error failure => exact ⟨nofun, nofun⟩
  | ok middle =>
      constructor
      · intro reached
        exact ⟨middle, rfl, reached⟩
      · rintro ⟨_, same, reached⟩
        cases same
        exact reached

theorem bind_eq_error_iff {first : Except error value} {next : value → Except error result}
    {failure : error} :
    (first >>= next) = .error failure ↔
      first = .error failure ∨ ∃ middle, first = .ok middle ∧ next middle = .error failure := by
  cases first with
  | error earlier =>
      constructor
      · intro failed
        exact Or.inl (congrArg Except.error (Except.error.inj failed))
      · rintro (failed | ⟨_, same, -⟩)
        · exact congrArg Except.error (Except.error.inj failed)
        · cases same
  | ok middle =>
      constructor
      · intro failed
        exact Or.inr ⟨middle, rfl, failed⟩
      · rintro (failed | ⟨_, same, failed⟩)
        · cases failed
        · cases same
          exact failed

theorem map_eq_ok_iff {first : Except error value} {change : value → result} {last : result} :
    first.map change = .ok last ↔ ∃ middle, first = .ok middle ∧ change middle = last := by
  cases first with
  | error failure => exact ⟨nofun, nofun⟩
  | ok middle =>
      constructor
      · intro reached
        exact ⟨middle, rfl, Except.ok.inj reached⟩
      · rintro ⟨_, same, rfl⟩
        cases same
        rfl

theorem mapError_eq_ok_iff {other : Type} {first : Except error value} {change : error → other}
    {last : value} : first.mapError change = .ok last ↔ first = .ok last := by
  cases first with
  | error failure => exact ⟨nofun, nofun⟩
  | ok middle => exact ⟨(Except.ok.inj · ▸ rfl), (Except.ok.inj · ▸ rfl)⟩

theorem demand_eq_ok_iff {candidate : Option value} {failure : error} {present : value} :
    demand candidate failure = .ok present ↔ candidate = some present := by
  cases candidate with
  | none => exact ⟨nofun, nofun⟩
  | some other =>
      exact ⟨fun same => congrArg some (Except.ok.inj same), fun same => by cases same; rfl⟩

theorem require_eq_ok_iff {condition : Prop} [Decidable condition] {failure : error} {last : Unit} :
    require condition failure = .ok last ↔ condition := by
  unfold require
  split
  · next holds => exact ⟨fun _ => holds, fun _ => rfl⟩
  · next fails => exact ⟨nofun, fun holds => absurd holds fails⟩

theorem require_bind_eq_ok_iff {condition : Prop} [Decidable condition] {failure : error}
    {next : Unit → Except error result} {last : result} :
    (require condition failure >>= next) = .ok last ↔ condition ∧ next () = .ok last := by
  rw [require_bind]
  split
  · next holds => exact ⟨fun reached => ⟨holds, reached⟩, And.right⟩
  · next fails => exact ⟨nofun, fun both => absurd both.1 fails⟩

theorem require_bind_eq_error_iff {condition : Prop} [Decidable condition] {refusal failure : error}
    {next : Unit → Except error result} :
    (require condition refusal >>= next) = .error failure ↔
      ¬condition ∧ failure = refusal ∨ condition ∧ next () = .error failure := by
  rw [require_bind]
  split
  · next holds =>
      constructor
      · intro failed
        exact Or.inr ⟨holds, failed⟩
      · rintro (⟨fails, -⟩ | ⟨-, failed⟩)
        · exact absurd holds fails
        · exact failed
  · next fails =>
      constructor
      · intro failed
        exact Or.inl ⟨fails, (Except.error.inj failed).symm⟩
      · rintro (⟨-, rfl⟩ | ⟨holds, -⟩)
        · rfl
        · exact absurd holds fails

theorem demand_bind_eq_ok_iff {candidate : Option value} {failure : error}
    {next : value → Except error result} {last : result} :
    (demand candidate failure >>= next) = .ok last ↔
      ∃ present, candidate = some present ∧ next present = .ok last := by
  cases candidate with
  | none => exact ⟨nofun, nofun⟩
  | some present =>
      constructor
      · intro reached
        exact ⟨present, rfl, reached⟩
      · rintro ⟨_, same, reached⟩
        cases same
        exact reached

/-- What was written element by element is read element by element. -/
theorem mapM_map_eq_ok {written : Type} {read : written → Except error value}
    {write : value → written} {values : List value}
    (inverse : ∀ member ∈ values, read (write member) = .ok member) :
    (values.map write).mapM read = .ok values := by
  induction values with
  | nil => rfl
  | cons first rest inductionHypothesis =>
      have others :=
        inductionHypothesis fun member later =>
          inverse member (List.mem_cons_of_mem first later)
      rw [List.map_cons, List.mapM_cons, inverse first (List.mem_cons_self ..), others]
      rfl

/-- If each element is read from its own writing alone, so is a list. -/
theorem mapM_eq_ok_iff {written : Type} {read : written → Except error value}
    {write : value → written} {good : value → Prop}
    (single : ∀ {text member}, read text = .ok member ↔ good member ∧ text = write member)
    {texts : List written} {values : List value} :
    texts.mapM read = .ok values ↔
      (∀ member ∈ values, good member) ∧ texts = values.map write := by
  constructor
  · intro reached
    induction texts generalizing values with
    | nil =>
        cases reached
        exact ⟨nofun, rfl⟩
    | cons text rest inductionHypothesis =>
        rw [List.mapM_cons] at reached
        obtain ⟨member, first, after⟩ := bind_eq_ok_iff.mp reached
        obtain ⟨later, others, same⟩ := bind_eq_ok_iff.mp after
        cases same
        obtain ⟨isGood, rfl⟩ := single.mp first
        obtain ⟨areGood, rfl⟩ := inductionHypothesis others
        exact ⟨List.forall_mem_cons.mpr ⟨isGood, areGood⟩, rfl⟩
  · rintro ⟨areGood, rfl⟩
    exact mapM_map_eq_ok fun member present => single.mpr ⟨areGood member present, rfl⟩

/-- A list is refused for the first element that is refused. -/
theorem mapM_eq_error_iff {written : Type} {read : written → Except error value}
    {texts : List written} {failure : error} :
    texts.mapM read = .error failure ↔
      ∃ front refused back, texts = front ++ refused :: back ∧
        (∀ text ∈ front, ∃ member, read text = .ok member) ∧ read refused = .error failure := by
  induction texts with
  | nil =>
      constructor
      · exact nofun
      · rintro ⟨front, refused, back, same, -⟩
        cases front <;> cases same
  | cons text rest inductionHypothesis =>
      rw [List.mapM_cons]
      cases first : read text with
      | error earlier =>
          constructor
          · intro reached
            cases reached
            exact ⟨[], text, rest, rfl, nofun, first⟩
          · rintro ⟨front, refused, back, same, accepted, last⟩
            cases front with
            | nil =>
                cases same
                rw [first] at last
                cases last
                rfl
            | cons head others =>
                cases same
                obtain ⟨member, fine⟩ := accepted text (List.mem_cons_self ..)
                rw [first] at fine
                cases fine
      | ok member =>
          have later :
              (do let others ← rest.mapM read; pure (member :: others)) = .error failure ↔
                rest.mapM read = .error failure := by
            rw [bind_eq_error_iff]
            exact or_iff_left fun ⟨_, _, failed⟩ => nomatch failed
          rw [ok_bind, later, inductionHypothesis]
          constructor
          · rintro ⟨front, refused, back, rfl, accepted, last⟩
            exact
              ⟨text :: front, refused, back, rfl,
                List.forall_mem_cons.mpr ⟨⟨member, first⟩, accepted⟩, last⟩
          · rintro ⟨front, refused, back, same, accepted, last⟩
            cases front with
            | nil =>
                cases same
                rw [first] at last
                cases last
            | cons head others =>
                cases same
                exact ⟨others, refused, back, rfl, (List.forall_mem_cons.mp accepted).2, last⟩

/-- What holds at the start and is kept by every step holds at the end, of the elements gone through
so far. -/
theorem foldlM_induction {state element : Type} {step : state → element → Except error state}
    {motive : List element → state → Prop} {first last : state} {elements : List element}
    (start : motive [] first)
    (keep :
      ∀ passed here element next,
        motive passed here → step here element = .ok next → motive (passed ++ [element]) next)
    (reached : elements.foldlM step first = .ok last) : motive elements last := by
  -- The steps begin at the front, so the statement is about any elements before them.
  suffices onwards :
      ∀ passed here,
        motive passed here → elements.foldlM step here = .ok last →
          motive (passed ++ elements) last from
    onwards [] first start reached
  clear reached
  induction elements with
  | nil =>
      intro passed here holds reached
      cases reached
      rw [List.append_nil]
      exact holds
  | cons element rest inductionHypothesis =>
      intro passed here holds reached
      rw [List.foldlM_cons] at reached
      obtain ⟨next, stepped, after⟩ := bind_eq_ok_iff.mp reached
      rw [List.append_cons]
      exact inductionHypothesis _ next (keep passed here element next holds stepped) after

end WalletKeys
