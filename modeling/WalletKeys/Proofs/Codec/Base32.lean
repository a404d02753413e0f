import WalletKeys.Codec.Base32
import WalletKeys.Proofs.Codec.BitStream
import WalletKeys.Proofs.Text
import WalletKeys.Proofs.TextCase

/-!
# Characters of five-bit symbols

Every symbol has a character of its own, so that characters are read exactly as
the symbols that they stand for (`Base32.symbols_eq_ok_iff`). They are small
letters and digits of one octet each, and no separator is among them. A text is
put into lower case if it is in one case (`Base32.normalizeCase_eq_ok_iff`).
-/

namespace WalletKeys

namespace Octets

theorem ofText_ofList_append (front back : List Char) :
    ofText (String.ofList (front ++ back)) =
      ofText (String.ofList front) ++ ofText (String.ofList back) := by
  simp only [ofText, String.toList_ofList, List.flatMap_append]

theorem length_ofText_of_single {characters : List Char}
    (single :
      ∀ character ∈ characters, (String.utf8EncodeChar character).length = 1) :
    (ofText (String.ofList characters)).length = characters.length := by
  rw [ofText, String.toList_ofList, List.length_flatMap, List.map_congr_left single,
    List.map_const', List.sum_replicate_nat, Nat.mul_one]

end Octets

namespace Base32

theorem character_mem (symbol : UInt8) : character symbol ∈ alphabet :=
  Text.getD_mem (by decide) _

theorem mem_of_mem_characters {symbols : List UInt8} {written : Char}
    (member : written ∈ characters symbols) : written ∈ alphabet := by
  obtain ⟨symbol, -, rfl⟩ := List.mem_map.mp member
  exact character_mem symbol

theorem plain_characters (symbols : List UInt8) :
    Text.Plain (characters symbols) := by
  have all : Text.Plain alphabet := by
    decide
  exact fun written member => all written (mem_of_mem_characters member)

theorem length_ofText_characters (symbols : List UInt8) :
    (Octets.ofText (String.ofList (characters symbols))).length = symbols.length := by
  have single :
      alphabet.map (fun written => (String.utf8EncodeChar written).length) =
        List.replicate alphabet.length 1 := by
    decide
  rw [Octets.length_ofText_of_single, characters, List.length_map]
  intro written member
  exact
    List.eq_of_mem_replicate
      (single ▸ List.mem_map_of_mem (mem_of_mem_characters member))

theorem symbol_eq_ok_iff {written : Char} {value : UInt8} :
    symbol written = .ok value ↔
      value.toNat < 2 ^ 5 ∧ written = character value := by
  have size : alphabet.length = 2 ^ 5 := by
    decide
  have distinct : alphabet.Nodup := by
    decide
  have low (number : UInt8) (bound : number.toNat < 2 ^ 5) :
      (number &&& 0x1f).toNat = number.toNat := by
    rw [UInt8.toNat_and, show (0x1f : UInt8).toNat = 2 ^ 5 - 1 from rfl,
      Nat.and_two_pow_sub_one_eq_mod, Nat.mod_eq_of_lt bound]
  rw [symbol, demand_eq_ok_iff, Option.map_eq_some_iff]
  constructor
  · rintro ⟨place, found, rfl⟩
    rw [Text.idxOf?_eq_some_iff distinct 'q', size] at found
    have number : (UInt8.ofNat place).toNat = place :=
      UInt8.toNat_ofNat_of_lt (found.1.trans (by decide))
    have bound : (UInt8.ofNat place).toNat < 2 ^ 5 := by
      rw [number]
      exact found.1
    refine ⟨bound, ?_⟩
    rw [character, low _ bound, number]
    exact found.2
  · rintro ⟨bound, rfl⟩
    refine ⟨value.toNat, ?_, UInt8.ofNat_toNat⟩
    rw [Text.idxOf?_eq_some_iff distinct 'q', size, character, low value bound]
    exact ⟨bound, rfl⟩

theorem symbols_eq_ok_iff {written : List Char} {values : List UInt8} :
    symbols written = .ok values ↔
      SymbolsFit 5 values ∧ written = characters values :=
  mapM_eq_ok_iff symbol_eq_ok_iff

theorem eq_of_characters_eq {left right : List UInt8} (leftFit : SymbolsFit 5 left)
    (rightFit : SymbolsFit 5 right) (same : characters left = characters right) :
    left = right := by
  have read := symbols_eq_ok_iff.mpr ⟨leftFit, same.symm⟩
  rw [symbols_eq_ok_iff.mpr ⟨rightFit, rfl⟩] at read
  exact (Except.ok.inj read).symm

/-- The last separator stands between the tag and the symbols. -/
theorem eq_of_tagged_eq {separator : Char} (absent : separator ∉ alphabet)
    {tag otherTag : List Char} {symbols otherSymbols : List UInt8}
    (fit : SymbolsFit 5 symbols) (otherFit : SymbolsFit 5 otherSymbols)
    (same :
      tag ++ separator :: characters symbols =
        otherTag ++ separator :: characters otherSymbols) :
    tag = otherTag ∧ symbols = otherSymbols := by
  have absentFrom (values : List UInt8) : separator ∉ characters values :=
    fun member => absent (mem_of_mem_characters member)
  have split := Text.splitLast?_append tag (absentFrom symbols)
  rw [same, Text.splitLast?_append otherTag (absentFrom otherSymbols),
    Option.some.injEq, Prod.mk.injEq] at split
  exact ⟨split.1.symm, eq_of_characters_eq fit otherFit split.2.symm⟩

theorem hasUppercase_characters (symbols : List UInt8) :
    Text.hasUppercase (String.ofList (characters symbols)) = false := by
  apply Text.hasUppercase_of_plain
  rw [String.toList_ofList]
  exact plain_characters symbols

theorem normalizeCase_eq_ok_iff {text small : String} :
    normalizeCase text = .ok small ↔
      Text.HasOneCase text ∧ small = Text.lowercase text := by
  unfold normalizeCase Text.HasOneCase
  split
  · next mixed =>
      rw [Bool.and_eq_true] at mixed
      simp [mixed]
  · next single =>
      rw [Bool.and_eq_true, not_and_or, Bool.not_eq_true, Bool.not_eq_true] at single
      rw [Except.ok.injEq, eq_comm, and_iff_right single]

theorem hasUppercase_tagged (tag : String) {separator : Char}
    (small : separator.isUpper = false) (symbols : List UInt8) :
    Text.hasUppercase
        (String.ofList
          ((Text.lowercase tag).toList ++ separator :: characters symbols)) =
      false := by
  have front : (Text.lowercase tag).toList.any Char.isUpper = false :=
    Text.hasUppercase_lowercase tag
  have back := hasUppercase_characters symbols
  rw [Text.hasUppercase, String.toList_ofList] at back ⊢
  rw [List.any_append, front, List.any_cons, small, back]
  rfl

end Base32

end WalletKeys
