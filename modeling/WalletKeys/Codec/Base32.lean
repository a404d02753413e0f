import WalletKeys.Codec.Regroup
import WalletKeys.Text

/-!
# Symbols of five bits and their checksum

Segwit and CashAddr texts are written with thirty-two characters. A checksum code over these
symbols follows the data; it is the remainder of the whole symbol stream by a generator polynomial.
-/

namespace WalletKeys

namespace Base32

def alphabet : List Char :=
  "qpzry9x8gf2tvdw0s3jn54khce6mua7l".toList

/-- The character of the low five bits of a symbol. -/
def character (symbol : UInt8) : Char :=
  alphabet.getD (symbol &&& 0x1f).toNat 'q'

def symbol (character : Char) : Except CodecError UInt8 :=
  demand ((alphabet.idxOf? character).map UInt8.ofNat) (.invalidCharacter character)

def characters (symbols : List UInt8) : List Char :=
  symbols.map character

def symbols (characters : List Char) : Except CodecError (List UInt8) :=
  characters.mapM symbol

/-- The text in lower case; letters of both cases in one text are refused. -/
def normalizeCase (text : String) : Except CodecError String :=
  if Text.hasLowercase text && Text.hasUppercase text then .error .mixedCase
  else .ok (Text.lowercase text)

end Base32

/-- A checksum of `width` symbols. The five generators are what the five bits of the symbol that
leaves the remainder add to it. -/
structure ChecksumCode where
  generators : Vector UInt64 5
  width : Nat
  deriving DecidableEq, Repr

namespace ChecksumCode

/-- How far the leading symbol of a remainder stands above the others. -/
def shift (code : ChecksumCode) : UInt64 :=
  UInt64.ofNat (5 * (code.width - 1))

def reduction (code : ChecksumCode) (leading : UInt64) : UInt64 :=
  code.generators.zipIdx.foldl (fun sum entry =>
    if (leading >>> UInt64.ofNat entry.2) &&& 1 = 1 then sum ^^^ entry.1 else sum) 0

def push (code : ChecksumCode) (remainder : UInt64) (symbol : UInt8) : UInt64 :=
  let leading := remainder >>> code.shift
  let others := remainder &&& ((1 <<< code.shift) - 1)
  ((others <<< 5) ^^^ symbol.toUInt64) ^^^ code.reduction leading

/-- The remainder of a symbol stream, which starts from one. -/
def remainder (code : ChecksumCode) (symbols : List UInt8) : UInt64 :=
  symbols.foldl code.push 1

/-- The checksum symbols that belong behind data with the given lead symbols. -/
def create (code : ChecksumCode) (lead data : List UInt8) : List UInt8 :=
  let target := code.remainder (lead ++ data ++ List.replicate code.width 0) ^^^ 1
  (List.range code.width).map fun place =>
    ((target >>> UInt64.ofNat (5 * (code.width - 1 - place))) &&& 0x1f).toUInt8

def verify (code : ChecksumCode) (lead data : List UInt8) : Bool :=
  code.remainder (lead ++ data) == 1

def segwit : ChecksumCode :=
  ⟨#v[0x3b6a57b2, 0x26508e6d, 0x1ea119fa, 0x3d4233dd, 0x2a1462b3], 6⟩

def cashAddr : ChecksumCode :=
  ⟨#v[0x98f2bc8e61, 0x79b76d99e2, 0xf33e5fb3c4, 0xae2eabe2a8, 0x1e4f43e470], 8⟩

end ChecksumCode

end WalletKeys
