import Mathlib
import WalletKeys.Text

/-!
# Texts in one case

Texts that are written in one case may be given in the other. The lower case of a
text has no capitals and is its own lower case; the capitals of a text have the
same lower case as the text.
-/

namespace WalletKeys.Text

/-- Small letters and capitals do not stand together in the text. -/
def HasOneCase (text : String) : Prop :=
  hasLowercase text = false ∨ hasUppercase text = false

instance (text : String) : Decidable (HasOneCase text) :=
  inferInstanceAs (Decidable (_ ∨ _))

theorem hasUppercase_lowercase (text : String) :
    hasUppercase (lowercase text) = false := by
  rw [hasUppercase, lowercase, String.toList_ofList, List.any_map, List.any_eq_false]
  intro character _
  rw [Function.comp_apply, Char.isUpper_toLower_eq_false]
  exact Bool.false_ne_true

theorem hasLowercase_uppercase (text : String) :
    hasLowercase (uppercase text) = false := by
  rw [hasLowercase, uppercase, String.toList_ofList, List.any_map, List.any_eq_false]
  intro character _
  rw [Function.comp_apply, Char.isLower_toUpper_eq_false]
  exact Bool.false_ne_true

theorem lowercase_uppercase (text : String) :
    lowercase (uppercase text) = lowercase text := by
  have same : Char.toLower ∘ Char.toUpper = Char.toLower :=
    funext Char.toLower_toUpper_eq_toLower
  rw [lowercase, uppercase, String.toList_ofList, List.map_map, same, lowercase]

theorem lowercase_of_not_hasUppercase {text : String}
    (small : hasUppercase text = false) : lowercase text = text := by
  have same : text.toList.map Char.toLower = text.toList.map id := by
    apply List.map_congr_left
    intro character member
    exact Char.toLower_eq_of_not_isUpper (List.any_eq_false.mp small character member)
  rw [lowercase, same, List.map_id, String.ofList_toList]

theorem lowercase_lowercase (text : String) :
    lowercase (lowercase text) = lowercase text :=
  lowercase_of_not_hasUppercase (hasUppercase_lowercase text)

theorem hasOneCase_lowercase (text : String) : HasOneCase (lowercase text) :=
  Or.inr (hasUppercase_lowercase text)

theorem hasOneCase_uppercase (text : String) : HasOneCase (uppercase text) :=
  Or.inl (hasLowercase_uppercase text)

/-- A character that is no letter stays where it is. -/
theorem mem_lowercase_iff {character : Char} (noLetter : character.isAlpha = false)
    (text : String) :
    character ∈ (lowercase text).toList ↔ character ∈ text.toList := by
  have stays (other : Char) (noLetter : other.isAlpha = false) :
      other.toLower = other := by
    apply Char.toLower_eq_of_not_isUpper
    intro capital
    rw [Char.isAlpha, capital] at noLetter
    cases noLetter
  rw [lowercase, String.toList_ofList, List.mem_map]
  constructor
  · rintro ⟨other, member, rfl⟩
    rw [Char.isAlpha_toLower_eq_isAlpha] at noLetter
    rwa [stays other noLetter]
  · intro member
    exact ⟨character, member, stays character noLetter⟩

/-- A text without capitals is the lower case of itself and of its capitals. -/
theorem lowercase_of_mem_cases {text given : String}
    (small : hasUppercase text = false) (member : given ∈ [text, uppercase text]) :
    HasOneCase given ∧ lowercase given = text := by
  simp only [List.mem_cons, List.not_mem_nil, or_false] at member
  rcases member with rfl | rfl
  · exact ⟨Or.inr small, lowercase_of_not_hasUppercase small⟩
  · exact
      ⟨hasOneCase_uppercase text,
        (lowercase_uppercase text).trans (lowercase_of_not_hasUppercase small)⟩

end WalletKeys.Text
