import WalletKeys.Codec.Regroup
import WalletKeys.Digest
import WalletKeys.Text

/-!
# Base58 and its checked form

Octets are digits of base 256 and characters digits of base 58, both most significant first. A digit
string is changed into the other base with its leading zeros kept one for one, so that strings of
different lengths stay different. The checked form carries the first four octets of the double
digest behind the payload.

A text is read octet by octet, so that a fault is found at an octet of the text. The character that
stands there is what is refused.
-/

namespace WalletKeys

namespace Radix

def ofDigits (base : Nat) : List Nat → Nat :=
  List.foldl (fun number digit => number * base + digit) 0

/-- Puts the digits of a number in front of others; `fuel` has to be no less than the number. -/
def digitsBefore (base : Nat) : (fuel number : Nat) → List Nat → List Nat
  | 0, _, digits => digits
  | fuel + 1, number, digits =>
      if number = 0 then digits
      else digitsBefore base fuel (number / base) (number % base :: digits)

/-- The digits of a number, none for zero. -/
def digits (base number : Nat) : List Nat :=
  digitsBefore base number number []

/-- The digit string in another base, with as many leading zeros. -/
def convert (source target : Nat) (string : List Nat) : List Nat :=
  string.takeWhile (· == 0) ++ digits target (ofDigits source string)

end Radix

namespace Base58

/-- The characters in the order of their values: digits and letters without `0`, `I`, `O`, `l`. -/
def alphabet : List Char :=
  "123456789ABCDEFGHJKLMNPQRSTUVWXYZabcdefghijkmnopqrstuvwxyz".toList

def symbol (value : Nat) : Char :=
  alphabet.getD value '1'

def encode (octets : Octets) : String :=
  String.ofList ((Radix.convert 256 58 (octets.map UInt8.toNat)).map symbol)

/-- Why the octets of a text are not read: one that is outside the alphabet or outside ASCII, told
by its place, or no room for what they write. -/
inductive ReadError where
  | invalidCharacter (character : Char) (place : Nat)
  | notAscii (place : Nat)
  | noRoom
  deriving DecidableEq, Repr

/-- The value of the octet at a place. -/
def valueAt (octet : UInt8) (place : Nat) : Except ReadError Nat :=
  if 0x7f < octet then .error (.notAscii place)
  else
    let character := Char.ofNat octet.toNat
    demand (alphabet.idxOf? character) (.invalidCharacter character place)

/-- The values of octets, the first of which stands at `place`. -/
def values (place : Nat) : Octets → Except ReadError (List Nat)
  | [] => .ok []
  | octet :: rest => do
      let value ← valueAt octet place
      let others ← values (place + 1) rest
      return value :: others

/-- Reads the octets of a text into as many octets as there is room for. -/
def read (room : Nat) (written : Octets) : Except ReadError Octets := do
  let values ← values 0 written
  let octets := (Radix.convert 58 256 values).map UInt8.ofNat
  require (octets.length ≤ room) .noRoom
  return octets

/-- What stands for a character that cannot be told. -/
def replacement : Char := Char.ofNat 0xfffd

/-- The error of a text whose octets are not read. Of an octet outside ASCII only the place is
known, and the character that begins there is looked up in the text. -/
def ReadError.cause (text : String) : ReadError → CodecError
  | invalidCharacter character _ => .invalidCharacter character
  | notAscii place =>
      let first? := (Text.cut? place text.toList).bind fun parts => parts.2.head?
      .invalidCharacter (first?.getD replacement)
  | noRoom => .invalidLength (Octets.ofText text).length

/-- The octet string of a text, which has room for it in its own octets. -/
def decode (text : String) : Except CodecError Octets :=
  let written := Octets.ofText text
  (read written.length written).mapError (ReadError.cause text)

def encodeChecked (payload : Octets) : String :=
  encode (payload ++ (checksum payload).octets)

def decodeChecked (text : String) : Except CodecError Octets := do
  let octets ← decode text
  require (4 ≤ octets.length) (.invalidLength octets.length)
  let payload := octets.take (octets.length - 4)
  require ((checksum payload).octets = octets.drop (octets.length - 4)) .checksumMismatch
  return payload

end Base58

end WalletKeys
