import WalletKeys.Hd.Error
import WalletKeys.Text

/-!
# Derivation paths

A path is written `m`, then a slash and a number for every step. A mark behind the number makes the
step hardened, which puts the highest of the 32 bits of the child number.
-/

namespace WalletKeys

/-- The number of a step, with the highest bit set for a hardened one. -/
structure ChildNumber where
  index : UInt32
  deriving DecidableEq, Repr

namespace ChildNumber

def hardenedOffset : UInt32 := 0x80000000

/-- The number of a step whose hardening is told apart. A number that has the highest bit keeps
it. -/
def ofIndex (index : UInt32) (hardened : Bool) : ChildNumber :=
  ⟨if hardened then index ||| hardenedOffset else index⟩

/-- The step needs the private key. -/
def isHardened (number : ChildNumber) : Bool :=
  decide (hardenedOffset ≤ number.index)

/-- The text of a step, a hardened one with the mark `'`. -/
def characters (number : ChildNumber) : List Char :=
  if number.isHardened then
    Nat.toDigits 10 (number.index - hardenedOffset).toNat ++ [Text.singleQuote]
  else Nat.toDigits 10 number.index.toNat

def text (number : ChildNumber) : String :=
  String.ofList number.characters

def decimal (digits : List Char) : Nat :=
  Nat.ofDigitChars 10 digits 0

def isMark (character : Char) : Bool :=
  character == Text.singleQuote || character == 'h' || character == 'H'

def ofDigits (digits : List Char) (hardened : Bool) : Except DerivationError ChildNumber := do
  require (digits ≠ [] ∧ digits.all Char.isDigit ∧ decimal digits < hardenedOffset.toNat) .badPath
  return ofIndex (UInt32.ofNat (decimal digits)) hardened

def parse (segment : List Char) : Except DerivationError ChildNumber :=
  let hardened := segment.getLast?.any isMark
  ofDigits (if hardened then segment.dropLast else segment) hardened

end ChildNumber

abbrev Path := List ChildNumber

namespace Path

def text (path : Path) : String :=
  String.ofList ('m' :: path.flatMap fun number => '/' :: number.characters)

/-- Reads a path; blanks around it do not count. -/
def parse (text : String) : Except DerivationError Path :=
  match Text.splitAll '/' (Text.trimBlanks text.toList) with
  | [] => .error .badPath
  | top :: segments =>
      if top = ['m'] ∨ top = ['M'] then segments.mapM ChildNumber.parse else .error .badPath

/-- What a path adds to another one with which it begins. -/
def below? : (anchor path : Path) → Option Path
  | [], path => some path
  | _ :: _, [] => none
  | expected :: anchor, number :: path => if expected = number then below? anchor path else none

end Path

end WalletKeys
