import WalletKeys.Proofs.OctetNumbers
import WalletKeys.SignedMessage

/-!
# Framed messages are told apart

A length has four forms (`IsSize`). None of them starts another, whatever
lengths they are of (`IsSize.append_inj`), and the one that is written is the
shortest that the length has (`eq_or_length_lt_of_isSize`). A message behind its
length can therefore be cut off whatever follows it (`sized_append_inj`), and so
can a formatted one.
-/

namespace WalletKeys.SignedMessage

/-- The octets that announce a length, each with how many octets the length then
takes. -/
def markers : List (UInt8 × ℕ) :=
  [(0xfd, 2), (0xfe, 4), (0xff, 8)]

/-- The octets are a form of the length: an octet below the markers, which
stands for itself, or a marker and the octets of the length, least significant
first. -/
inductive IsSize (length : ℕ) : Octets → Prop
  | alone (octet : UInt8) (below : octet < 0xfd)
      (value : octet.toNat = length) : IsSize length [octet]
  | marked (marker : UInt8) (tail : Octets)
      (announced : (marker, tail.length) ∈ markers)
      (value : Nat.ofDigits 256 (tail.map UInt8.toNat) = length) :
      IsSize length (marker :: tail)

theorem mem_markers_iff {marker : UInt8} {width : ℕ} :
    (marker, width) ∈ markers ↔
      marker = 0xfd ∧ width = 2 ∨ marker = 0xfe ∧ width = 4 ∨
        marker = 0xff ∧ width = 8 := by
  simp only [markers, List.mem_cons, Prod.mk.injEq, List.not_mem_nil, or_false]

theorem le_of_mem_markers {marker : UInt8} {width : ℕ}
    (announced : (marker, width) ∈ markers) : 0xfd ≤ marker := by
  rcases mem_markers_iff.mp announced with ⟨rfl, -⟩ | ⟨rfl, -⟩ | ⟨rfl, -⟩ <;>
    decide

theorem pos_of_mem_markers {marker : UInt8} {width : ℕ}
    (announced : (marker, width) ∈ markers) : 0 < width := by
  have widths := mem_markers_iff.mp announced
  omega

/-- A marker announces one width, and a width has one marker. -/
theorem eq_iff_of_mem_markers {left right : UInt8} {leftWidth rightWidth : ℕ}
    (leftAnnounced : (left, leftWidth) ∈ markers)
    (rightAnnounced : (right, rightWidth) ∈ markers) :
    left = right ↔ leftWidth = rightWidth := by
  rcases mem_markers_iff.mp leftAnnounced with
      ⟨rfl, rfl⟩ | ⟨rfl, rfl⟩ | ⟨rfl, rfl⟩ <;>
    rcases mem_markers_iff.mp rightAnnounced with
      ⟨rfl, rfl⟩ | ⟨rfl, rfl⟩ | ⟨rfl, rfl⟩ <;>
    decide

namespace IsSize

variable {length other : ℕ} {octets others : Octets}

theorem value_unique (size : IsSize length octets) (again : IsSize other octets) :
    length = other := by
  cases size with
  | alone octet below value =>
      cases again with
      | alone _ _ same =>
          rw [← value, same]
      | marked _ tail announced _ =>
          exact absurd (le_of_mem_markers announced) (UInt8.not_le.mpr below)
  | marked marker tail announced value =>
      cases again with
      | alone _ below _ =>
          exact absurd (le_of_mem_markers announced) (UInt8.not_le.mpr below)
      | marked _ _ _ same =>
          rw [← value, same]

/-- No form starts another, and what follows a form does not blur its end. -/
theorem append_inj {rest remaining : Octets} (size : IsSize length octets)
    (otherSize : IsSize other others)
    (same : octets ++ rest = others ++ remaining) :
    octets = others ∧ rest = remaining := by
  cases size with
  | alone octet below _ =>
      cases otherSize with
      | alone _ _ _ =>
          exact List.append_inj same rfl
      | marked _ _ announced _ =>
          cases same
          exact absurd (le_of_mem_markers announced) (UInt8.not_le.mpr below)
  | marked marker tail announced _ =>
      cases otherSize with
      | alone _ below _ =>
          cases same
          exact absurd (le_of_mem_markers announced) (UInt8.not_le.mpr below)
      | marked otherMarker otherTail otherAnnounced _ =>
          -- The marker comes first and says where both forms end.
          have markers : marker = otherMarker :=
            List.head_eq_of_cons_eq same
          have widths : tail.length = otherTail.length :=
            (eq_iff_of_mem_markers announced otherAnnounced).mp markers
          exact List.append_inj same (congrArg Nat.succ widths)

/-- A length has at most one form of each number of octets. -/
theorem eq_of_length_eq (size : IsSize length octets)
    (otherSize : IsSize length others) (same : octets.length = others.length) :
    octets = others := by
  cases size with
  | alone octet _ value =>
      cases otherSize with
      | alone otherOctet _ otherValue =>
          rw [UInt8.toNat_inj.mp (value.trans otherValue.symm)]
      | marked _ _ announced _ =>
          exact absurd (Nat.succ.inj same) (pos_of_mem_markers announced).ne
  | marked marker tail announced value =>
      cases otherSize with
      | alone _ _ _ =>
          exact absurd (Nat.succ.inj same) (pos_of_mem_markers announced).ne'
      | marked otherMarker otherTail otherAnnounced otherValue =>
          have widths : tail.length = otherTail.length :=
            Nat.succ.inj same
          have markers : marker = otherMarker :=
            (eq_iff_of_mem_markers announced otherAnnounced).mpr widths
          have tails : tail = otherTail :=
            Octets.eq_of_ofDigits_map_eq widths (value.trans otherValue.symm)
          rw [markers, tails]

/-- How many octets a form has, and which lengths it can hold. -/
theorem length_and_bound (size : IsSize length octets) :
    octets.length = 1 ∧ length < 0xfd ∨
      octets.length = 3 ∧ length < 256 ^ 2 ∨
      octets.length = 5 ∧ length < 256 ^ 4 ∨
      octets.length = 9 ∧ length < 256 ^ 8 := by
  cases size with
  | alone octet below value =>
      left
      exact ⟨rfl, value ▸ UInt8.lt_iff_toNat_lt.mp below⟩
  | marked marker tail announced value =>
      right
      have bound := Octets.ofDigits_map_lt tail
      rw [value] at bound
      rw [List.length_cons]
      rcases mem_markers_iff.mp announced with
        ⟨-, width⟩ | ⟨-, width⟩ | ⟨-, width⟩
      · rw [width] at bound ⊢
        exact Or.inl ⟨rfl, bound⟩
      · rw [width] at bound ⊢
        exact Or.inr (Or.inl ⟨rfl, bound⟩)
      · rw [width] at bound ⊢
        exact Or.inr (Or.inr ⟨rfl, bound⟩)

end IsSize

theorem isSize_marked {marker : UInt8} {width length : ℕ}
    (announced : (marker, width) ∈ markers) (bound : length < 256 ^ width) :
    IsSize length (marker :: Octets.ofNatReversed width length) :=
  .marked marker _ (by rwa [Octets.length_ofNatReversed])
    (Octets.ofDigits_map_ofNatReversed bound)

theorem isSize_alone {length : ℕ} (below : length < 0xfd) :
    IsSize length (Octets.ofNatReversed 1 length) := by
  have value : (UInt8.ofNat length).toNat = length :=
    UInt8.toNat_ofNat_of_lt (below.trans (by decide))
  refine .alone (UInt8.ofNat length) ?_ value
  rw [UInt8.lt_iff_toNat_lt, value]
  exact below

/-- The form that is written, by the bounds of the forms. -/
theorem compactSize_eq (length : UInt64) :
    compactSize length =
      if length.toNat < 0xfd then Octets.ofNatReversed 1 length.toNat
      else if length.toNat < 256 ^ 2 then
        0xfd :: Octets.ofNatReversed 2 length.toNat
      else if length.toNat < 256 ^ 4 then
        0xfe :: Octets.ofNatReversed 4 length.toNat
      else 0xff :: Octets.ofNatReversed 8 length.toNat := by
  have one : length < 0xfd ↔ length.toNat < 0xfd :=
    UInt64.lt_iff_toNat_lt
  have two : length ≤ 0xffff ↔ length.toNat < 256 ^ 2 :=
    UInt64.le_iff_toNat_le.trans Nat.lt_succ_iff.symm
  have four : length ≤ 0xffffffff ↔ length.toNat < 256 ^ 4 :=
    UInt64.le_iff_toNat_le.trans Nat.lt_succ_iff.symm
  simp only [compactSize, one, two, four]

theorem isSize_compactSize (length : UInt64) :
    IsSize length.toNat (compactSize length) := by
  rw [compactSize_eq]
  split
  · next below =>
      exact isSize_alone below
  · split
    · next fits =>
        exact isSize_marked (by decide) fits
    · split
      · next fits =>
          exact isSize_marked (by decide) fits
      · exact isSize_marked (by decide) length.toNat_lt

/-- No form of the length is shorter than the one that is written: the bounds of
the shorter forms are exceeded. -/
theorem length_compactSize_le {length : UInt64} {octets : Octets}
    (size : IsSize length.toNat octets) :
    (compactSize length).length ≤ octets.length := by
  have bounds := size.length_and_bound
  rw [compactSize_eq]
  split
  · rw [Octets.length_ofNatReversed]
    omega
  · split
    · rw [List.length_cons, Octets.length_ofNatReversed]
      omega
    · split
      · rw [List.length_cons, Octets.length_ofNatReversed]
        omega
      · rw [List.length_cons, Octets.length_ofNatReversed]
        omega

/-- Every other form of the length is longer than the one that is written. -/
theorem eq_or_length_lt_of_isSize {length : UInt64} {octets : Octets}
    (size : IsSize length.toNat octets) :
    octets = compactSize length ∨
      (compactSize length).length < octets.length := by
  rcases (length_compactSize_le size).eq_or_lt with same | shorter
  · exact Or.inl (size.eq_of_length_eq (isSize_compactSize length) same.symm)
  · exact Or.inr shorter

theorem compactSize_append_inj {left right : UInt64} {rest remaining : Octets}
    (same : compactSize left ++ rest = compactSize right ++ remaining) :
    left = right ∧ rest = remaining := by
  have leftSize := isSize_compactSize left
  have rightSize := isSize_compactSize right
  obtain ⟨sizes, rests⟩ := leftSize.append_inj rightSize same
  rw [← sizes] at rightSize
  exact ⟨UInt64.toNat_inj.mp (leftSize.value_unique rightSize), rests⟩

theorem not_isPrefix_compactSize {left right : UInt64} (different : left ≠ right) :
    ¬compactSize left <+: compactSize right := by
  rintro ⟨rest, same⟩
  rw [← List.append_nil (compactSize right)] at same
  exact different (compactSize_append_inj same).1

/-- Octets behind their length are cut off in one way, as long as the length
fits its word. -/
theorem sized_append_inj {left right rest remaining : Octets}
    (leftBound : left.length < 2 ^ 64) (rightBound : right.length < 2 ^ 64)
    (same : sized left ++ rest = sized right ++ remaining) :
    left = right ∧ rest = remaining := by
  rw [sized, sized, List.append_assoc, List.append_assoc] at same
  obtain ⟨lengths, bodies⟩ := compactSize_append_inj same
  have counts : left.length = right.length := by
    rw [← UInt64.toNat_ofNat_of_lt' leftBound, lengths,
      UInt64.toNat_ofNat_of_lt' rightBound]
  exact List.append_inj bodies counts

theorem format_append_inj {left right rest remaining : Octets}
    (leftBound : left.length < 2 ^ 64) (rightBound : right.length < 2 ^ 64)
    (same : format left ++ rest = format right ++ remaining) :
    left = right ∧ rest = remaining := by
  rw [format, format, List.append_assoc, List.append_assoc] at same
  exact
    sized_append_inj leftBound rightBound (List.append_cancel_left same)

/-- The forms that are written for two lengths do not start one another, and
each is the shortest form of its length. Formatted messages are therefore told
apart, whatever follows them. -/
theorem framing_unambiguous :
    (∀ left right : UInt64, left ≠ right →
        ¬compactSize left <+: compactSize right ∧
          ¬compactSize right <+: compactSize left) ∧
      (∀ length : UInt64,
        IsSize length.toNat (compactSize length) ∧
          ∀ octets, IsSize length.toNat octets →
            octets = compactSize length ∨
              (compactSize length).length < octets.length) ∧
      ∀ left right rest remaining : Octets,
        left.length < 2 ^ 64 → right.length < 2 ^ 64 →
          format left ++ rest = format right ++ remaining →
            left = right ∧ rest = remaining :=
  ⟨fun _ _ different =>
      ⟨not_isPrefix_compactSize different,
        not_isPrefix_compactSize different.symm⟩,
    fun length =>
      ⟨isSize_compactSize length, fun _ => eq_or_length_lt_of_isSize⟩,
    fun _ _ _ _ => format_append_inj⟩

/-- At the first bound: a marked form of 252 is longer than the one that is
written, which does not start that of 253, and messages of 252 and of 253 zeros
stay apart whatever follows them. One message, as a text and as its octets, is
the same behind its frame. -/
theorem framing_unambiguous_boundary :
    let marked : Octets := [0xfd, 0xfc, 0x00]
    let text := Octets.ofText "né"
    let octets : Octets := [0x6e, 0xc3, 0xa9]
    ((0xfc : UInt64) ≠ 0xfd ∧
        ¬compactSize 0xfc <+: compactSize 0xfd ∧
        ¬compactSize 0xfd <+: compactSize 0xfc) ∧
      (IsSize (0xfc : UInt64).toNat marked ∧ marked ≠ compactSize 0xfc ∧
        (compactSize 0xfc).length < marked.length) ∧
      (text.length < 2 ^ 64 ∧ octets.length < 2 ^ 64 ∧
        format text ++ [0x00] = format octets ++ [0x00] ∧ text = octets) ∧
      ∀ rest remaining : Octets,
        format (List.replicate 252 0) ++ rest ≠
          format (List.replicate 253 0) ++ remaining := by
  intro marked text octets
  obtain ⟨apart, shortest, cut⟩ := framing_unambiguous
  have different : (0xfc : UInt64) ≠ 0xfd := by
    decide
  have size : IsSize (0xfc : UInt64).toNat marked :=
    .marked 0xfd _ (by decide) (by decide)
  have longer : marked ≠ compactSize 0xfc := by
    decide
  have framed : format text ++ [0x00] = format octets ++ [0x00] := by
    decide
  have textBound : text.length < 2 ^ 64 := by
    decide
  have octetsBound : octets.length < 2 ^ 64 := by
    decide
  refine
    ⟨⟨different, apart _ _ different⟩,
      ⟨size, longer, ((shortest 0xfc).2 _ size).resolve_left longer⟩,
      ⟨textBound, octetsBound, framed,
        (cut _ _ _ _ textBound octetsBound framed).1⟩, ?_⟩
  intro rest remaining same
  have bound (count : ℕ) (fits : count < 2 ^ 64) :
      (List.replicate count (0 : UInt8)).length < 2 ^ 64 := by
    rwa [List.length_replicate]
  obtain ⟨zeros, -⟩ :=
    cut _ _ rest remaining (bound 252 (by decide)) (bound 253 (by decide)) same
  have counts := congrArg List.length zeros
  rw [List.length_replicate, List.length_replicate] at counts
  exact absurd counts (by decide)

end WalletKeys.SignedMessage
