import WalletKeys.Octets
import WalletKeys.Require
import WalletKeys.Text.Quoted

/-!
# Regrouping bits

A list of symbols of one width is read as a stream of bits, highest first, and cut anew into symbols
of another width. A codec that cannot go on says why (`CodecError`).

Base64 is regrouping into symbols of six bits: three octets are written with four characters and
the last group is filled with `=`. Its reader takes only what the writer writes: the filling is
complete, and bits that are left over are zeros.
-/

namespace WalletKeys

/-- Why a text is not what a codec writes, or a value cannot be written. -/
inductive CodecError where
  | invalidCharacter (character : Char)
  | checksumMismatch
  | invalidLength (length : Nat)
  | invalidPadding
  | mixedCase
  | missingSeparator
  | unexpectedTag (tag : String)
  | unsupportedWitness (version : UInt8)
  deriving DecidableEq, Repr

def CodecError.message : CodecError → String
  | invalidCharacter character => "invalid character " ++ Text.quoteCharacter character
  | checksumMismatch => "checksum mismatch"
  | invalidLength length => "invalid length: " ++ toString length
  | invalidPadding => "invalid padding in 5-bit data"
  | mixedCase => "mixed-case string"
  | missingSeparator => "missing prefix separator"
  | unexpectedTag tag => "unexpected prefix " ++ Text.quote tag
  | unsupportedWitness version => "unsupported witness version " ++ toString version.toNat

/-- The low `count` bits of a number. -/
def lowBits (count number : Nat) : Nat :=
  number % (1 <<< count)

/-- A stream that is being cut: the symbols made so far, latest first, and the bits left over, as a
number and how many there are. -/
structure Regrouping where
  latestFirst : List UInt8
  pending : Nat
  count : Nat
  deriving DecidableEq, Repr

namespace Regrouping

def start : Regrouping := ⟨[], 0, 0⟩

/-- Takes in one symbol of `source` bits and makes all symbols of `target` bits that are full. -/
def push (source target : Nat) (stream : Regrouping) (symbol : UInt8) : Regrouping :=
  let pending := stream.pending <<< source + symbol.toNat
  let count := stream.count + source
  let full := (List.range (count / target)).map fun place =>
    UInt8.ofNat (lowBits target (pending >>> (count - (place + 1) * target)))
  ⟨full.reverse ++ stream.latestFirst, lowBits (count % target) pending, count % target⟩

def read (source target : Nat) (symbols : List UInt8) : Regrouping :=
  symbols.foldl (push source target) start

/-- All symbols, the last one filled with zeros. -/
def filled (target : Nat) (stream : Regrouping) : List UInt8 :=
  stream.latestFirst.reverse ++
    if stream.count = 0 then []
    else [UInt8.ofNat (stream.pending <<< (target - stream.count))]

/-- The full symbols, if the bits left over are zeros and fewer than `source`. -/
def exact (source : Nat) (stream : Regrouping) : Except CodecError (List UInt8) :=
  if source ≤ stream.count ∨ stream.pending ≠ 0 then .error .invalidPadding
  else .ok stream.latestFirst.reverse

end Regrouping

/-- Regroups symbols of `source` bits into symbols of `target` bits. A symbol that has more bits is
refused. With `pad` the last symbol is filled with zeros; without it nothing but a few zeros may be
left over. -/
def regroup (source target : Nat) (pad : Bool) (symbols : List UInt8) :
    Except CodecError (List UInt8) :=
  if symbols.any fun symbol => decide (1 <<< source ≤ symbol.toNat) then .error .invalidPadding
  else
    let stream := Regrouping.read source target symbols
    if pad then .ok (stream.filled target) else stream.exact source

/-- Octets as symbols of `target` bits, the last one filled with zeros. -/
def regroupOctets (target : Nat) (octets : Octets) : List UInt8 :=
  (Regrouping.read 8 target octets).filled target

namespace Base64

def alphabet : List Char :=
  "ABCDEFGHIJKLMNOPQRSTUVWXYZabcdefghijklmnopqrstuvwxyz0123456789+/".toList

def fillCount (count : Nat) : Nat :=
  (4 - count % 4) % 4

def encode (octets : Octets) : String :=
  let symbols := regroupOctets 6 octets
  String.ofList (symbols.map (fun symbol => alphabet.getD symbol.toNat 'A') ++
    List.replicate (fillCount symbols.length) '=')

def decode? (text : String) : Option Octets :=
  let body := text.toList.takeWhile (· ≠ '=')
  if text.toList.drop body.length ≠ List.replicate (fillCount body.length) '=' then none
  else do
    let values ← body.mapM fun character => alphabet.idxOf? character
    (regroup 6 8 false (values.map UInt8.ofNat)).toOption

end Base64

end WalletKeys
