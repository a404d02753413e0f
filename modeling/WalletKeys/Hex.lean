import WalletKeys.Octets
import WalletKeys.Text.Quoted

/-!
# Hexadecimal text

Octet strings are written with two lower-case digits an octet and read in either case. A fault of
the text is reported by its place, counted in octets of UTF-8.
-/

namespace WalletKeys

/-- Why a text is no hexadecimal octet string. -/
inductive HexError where
  | oddLength
  | invalidDigit (character : Char) (place : Nat)
  deriving DecidableEq, Repr

def HexError.message : HexError → String
  | oddLength => "Odd number of digits"
  | invalidDigit character place =>
      "Invalid character " ++ Text.quoteCharacter character ++ " at position " ++ toString place

namespace Hex

def digit (value : Nat) : Char :=
  Char.ofNat (if value < 10 then 0x30 + value else 0x57 + value)

def digits (octets : Octets) : List Char :=
  octets.flatMap fun octet => [digit (octet.toNat / 16), digit (octet.toNat % 16)]

def encode (octets : Octets) : String :=
  String.ofList (digits octets)

/-- A number in lower-case digits, filled with zeros up to a width. -/
def ofNat (width number : Nat) : String :=
  let shortest := Nat.toDigits 16 number
  String.ofList (List.replicate (width - shortest.length) '0' ++ shortest)

def value? (octet : UInt8) : Option UInt8 :=
  if 0x30 ≤ octet && octet ≤ 0x39 then some (octet - 0x30)
  else if 0x61 ≤ octet && octet ≤ 0x66 then some (octet - 0x57)
  else if 0x41 ≤ octet && octet ≤ 0x46 then some (octet - 0x37)
  else none

/-- The value of the digit at a place, or the fault there. -/
def digitAt (octet : UInt8) (place : Nat) : Except HexError UInt8 :=
  match value? octet with
  | some value => .ok value
  | none => .error (.invalidDigit (Char.ofNat octet.toNat) place)

/-- Reads pairs of digits, the first of which stands at `place`. -/
def pairs (place : Nat) : Octets → Except HexError Octets
  | high :: low :: rest => do
      let high ← digitAt high place
      let low ← digitAt low (place + 1)
      let octets ← pairs (place + 2) rest
      return (high * 16 + low) :: octets
  | _ => .ok []

def decode (text : String) : Except HexError Octets :=
  let octets := Octets.ofText text
  if octets.length % 2 = 1 then .error .oddLength else pairs 0 octets

end Hex

end WalletKeys
