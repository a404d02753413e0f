import WalletKeys.Hex
import WalletKeys.Proofs.Codec.Base58
import WalletKeys.Proofs.Codec.CashAddr
import WalletKeys.Proofs.Codec.Segwit

/-!
# What the codecs write

No codec writes a blank. Segwit and CashAddr, whose texts may also be given in
capitals, write none themselves under a tag without blanks and capitals, and such a
tag is one that they take as it is. Hexadecimal digits are read back as the octets
that they are written for (`Hex.decode_encode`).
-/

namespace WalletKeys

namespace Base58

theorem solid_encode (octets : Octets) : Text.Solid (encode octets).toList := by
  have all : Text.Solid alphabet := by
    decide
  exact fun character member => all character (mem_alphabet_of_mem_encode member)

theorem solid_encodeChecked (payload : Octets) :
    Text.Solid (encodeChecked payload).toList :=
  solid_encode _

end Base58

namespace Hex

theorem solid_encode (octets : Octets) : Text.Solid (encode octets).toList := by
  have all : ∀ value < 16, Text.isBlank (digit value) = false := by
    decide
  intro character member
  rw [encode, String.toList_ofList, digits, List.mem_flatMap] at member
  obtain ⟨octet, -, written⟩ := member
  have bound : octet.toNat < 256 :=
    octet.toNat_lt
  simp only [List.mem_cons, List.not_mem_nil, or_false] at written
  rcases written with rfl | rfl
  · exact all _ (by omega)
  · exact all _ (by omega)

/-- The octet of the digit of a value. -/
def digitOctet (value : ℕ) : UInt8 :=
  UInt8.ofNat (digit value).toNat

theorem digit_spec :
    ∀ value < 16,
      String.utf8EncodeChar (digit value) = [digitOctet value] ∧
        value? (digitOctet value) = some (UInt8.ofNat value) := by
  decide

theorem ofText_encode_cons (octet : UInt8) (rest : Octets) :
    Octets.ofText (encode (octet :: rest)) =
      digitOctet (octet.toNat / 16) :: digitOctet (octet.toNat % 16) ::
        Octets.ofText (encode rest) := by
  have bound : octet.toNat < 256 :=
    octet.toNat_lt
  have high := (digit_spec (octet.toNat / 16) (by omega)).1
  have low := (digit_spec (octet.toNat % 16) (by omega)).1
  simp only [Octets.ofText, encode, String.toList_ofList, digits, List.flatMap_cons,
    List.cons_append, List.nil_append, high, low]

theorem length_ofText_encode (octets : Octets) :
    (Octets.ofText (encode octets)).length = 2 * octets.length := by
  induction octets with
  | nil =>
      rfl
  | cons octet rest inductionHypothesis =>
      rw [ofText_encode_cons, List.length_cons, List.length_cons, inductionHypothesis,
        List.length_cons]
      omega

theorem digitAt_digitOctet {value : ℕ} (bound : value < 16) (place : ℕ) :
    digitAt (digitOctet value) place = .ok (UInt8.ofNat value) := by
  rw [digitAt, (digit_spec value bound).2]

/-- The digits of octets are read as these, wherever they stand. -/
theorem pairs_encode (octets : Octets) (place : ℕ) :
    pairs place (Octets.ofText (encode octets)) = .ok octets := by
  induction octets generalizing place with
  | nil =>
      rfl
  | cons octet rest inductionHypothesis =>
      have bound : octet.toNat < 256 :=
        octet.toNat_lt
      have whole :
          UInt8.ofNat (octet.toNat / 16) * 16 + UInt8.ofNat (octet.toNat % 16) =
            octet := by
        have sixteen : (16 : UInt8).toNat = 16 :=
          rfl
        have high : (UInt8.ofNat (octet.toNat / 16)).toNat = octet.toNat / 16 :=
          UInt8.toNat_ofNat_of_lt (show octet.toNat / 16 < 256 by omega)
        have low : (UInt8.ofNat (octet.toNat % 16)).toNat = octet.toNat % 16 :=
          UInt8.toNat_ofNat_of_lt (show octet.toNat % 16 < 256 by omega)
        rw [← UInt8.toNat_inj, UInt8.toNat_add, UInt8.toNat_mul, sixteen, high, low]
        omega
      rw [ofText_encode_cons, pairs, digitAt_digitOctet (by omega), ok_bind,
        digitAt_digitOctet (by omega), ok_bind, inductionHypothesis, ok_bind, whole]
      rfl

/-- What is written in digits is read back. -/
theorem decode_encode (octets : Octets) : decode (encode octets) = .ok octets := by
  have even : ¬(Octets.ofText (encode octets)).length % 2 = 1 := by
    rw [length_ofText_encode]
    omega
  rw [decode, if_neg even, pairs_encode]

end Hex

theorem plain_tagged {tag : String} (plain : Text.Plain tag.toList)
    {separator : Char} (solid : Text.isBlank separator = false)
    (small : separator.isUpper = false) (symbols : List UInt8) :
    Text.Plain (tag.toList ++ separator :: Base32.characters symbols) :=
  List.forall_mem_append.mpr
    ⟨plain,
      List.forall_mem_cons.mpr
        ⟨⟨solid, small⟩, Base32.plain_characters symbols⟩⟩

theorem hasOneCase_of_plain {tag : String} (plain : Text.Plain tag.toList) :
    Text.HasOneCase tag ∧ Text.lowercase tag = tag := by
  have capitals := Text.hasUppercase_of_plain plain
  exact ⟨Or.inr capitals, Text.lowercase_of_not_hasUppercase capitals⟩

end WalletKeys
