import WalletKeys.Codec.Base32
import WalletKeys.Text

/-!
# Segwit addresses

A tag, the separator `1`, the witness version as one symbol, the program in symbols and a checksum
of six symbols. Version zero alone is known, with programs of 20 or 32 octets.
-/

namespace WalletKeys.Segwit

/-- The symbols that a tag adds in front of the data for the checksum: the high three bits of each
octet, a zero, and the low five bits of each octet. -/
def expandTag (tag : String) : List UInt8 :=
  let octets := Octets.ofText tag
  let high := octets.map fun octet : UInt8 => octet >>> 5
  let low := octets.map fun octet : UInt8 => octet &&& 0x1f
  high ++ 0 :: low

/-- The longest address, in octets. -/
def longest : Nat := 90

/-- Refuses versions other than zero and programs that version zero does not have. -/
def checkProgram (version : UInt8) (program : Octets) : Except CodecError Unit := do
  require (version = 0) (.unsupportedWitness version)
  require (program.length = 20 ∨ program.length = 32) (.invalidLength program.length)

def encode (tag : String) (version : UInt8) (program : Octets) : Except CodecError String := do
  checkProgram version program
  let tag ← Base32.normalizeCase tag
  let symbols ← regroup 8 5 true program
  let data := version :: symbols
  let check := ChecksumCode.segwit.create (expandTag tag) data
  return String.ofList (tag.toList ++ '1' :: Base32.characters (data ++ check))

/-- The version and program that the data symbols of an address hold. -/
def readData : List UInt8 → Except CodecError (UInt8 × Octets)
  | [] => .error (.invalidLength 0)
  | version :: symbols => do
      let program ← regroup 5 8 false symbols
      checkProgram version program
      return (version, program)

/-- The version and program of an address whose tag is the expected one up to case. The tag ends at
the last separator. -/
def decode (expectedTag address : String) : Except CodecError (UInt8 × Octets) := do
  let address ← Base32.normalizeCase address
  let parts ← demand (Text.splitLast? '1' address.toList) .missingSeparator
  let tag := String.ofList parts.1
  require (tag = Text.lowercase expectedTag) (.unexpectedTag tag)
  let size := (Octets.ofText address).length
  let width := ChecksumCode.segwit.width
  require (width < (Octets.ofText (String.ofList parts.2)).length ∧ size ≤ longest)
    (.invalidLength size)
  let symbols ← Base32.symbols parts.2
  require (ChecksumCode.segwit.verify (expandTag tag) symbols) .checksumMismatch
  readData (symbols.take (symbols.length - width))

end WalletKeys.Segwit
