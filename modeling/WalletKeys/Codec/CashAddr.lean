import WalletKeys.Codec.Base32
import WalletKeys.Text

/-!
# CashAddr addresses

A tag, a colon, and in symbols a version octet, a hash and a checksum of eight symbols. The low
three bits of the version octet are the size code of the hash. The tag and the colon may be left
out, since the checksum depends on the tag.
-/

namespace WalletKeys.CashAddr

/-- The symbols that a tag adds in front of the data for the checksum: the low five bits of each
octet and a zero. -/
def expandTag (tag : String) : List UInt8 :=
  (Octets.ofText tag).map (fun octet => octet &&& 0x1f) ++ [0]

/-- The lengths that a hash may have, in the order of their size codes. -/
def hashLengths : List Nat := [20, 24, 28, 32, 40, 48, 56, 64]

def sizeCode (length : Nat) : Except CodecError UInt8 :=
  demand ((hashLengths.idxOf? length).map UInt8.ofNat) (.invalidLength length)

/-- The version octet of an address kind and a hash length. Bits of the kind that do not fit are
dropped. -/
def versionOctet (kind : UInt8) (length : Nat) : Except CodecError UInt8 := do
  let code ← sizeCode length
  return (kind <<< 3) ||| code

/-- The address of a hash under a tag. The version octet is written as it is. -/
def encode (tag : String) (version : UInt8) (hash : Octets) : Except CodecError String := do
  let tag ← Base32.normalizeCase tag
  let data ← regroup 8 5 true (version :: hash)
  let check := ChecksumCode.cashAddr.create (expandTag tag) data
  return String.ofList (tag.toList ++ ':' :: Base32.characters (data ++ check))

/-- The part of an address behind its tag, which has to be the expected one if it is there. -/
def body (expectedTag address : String) : Except CodecError (List Char) :=
  match Text.splitFirst? ':' address.toList with
  | none => .ok address.toList
  | some (tag, body) =>
      if String.ofList tag = expectedTag then .ok body
      else .error (.unexpectedTag (String.ofList tag))

/-- The version octet and hash in the octets of an address. The size code of the version octet has
to be that of the hash. -/
def readData : Octets → Except CodecError (UInt8 × Octets)
  | [] => .error (.invalidLength 0)
  | version :: hash => do
      let code ← sizeCode hash.length
      require (code = version &&& 0x07) (.invalidLength hash.length)
      return (version, hash)

/-- The version octet and hash of an address whose tag, if it is written, is the expected one up to
case. -/
def decode (expectedTag address : String) : Except CodecError (UInt8 × Octets) := do
  let address ← Base32.normalizeCase address
  let tag := Text.lowercase expectedTag
  let body ← body tag address
  let size := (Octets.ofText (String.ofList body)).length
  let width := ChecksumCode.cashAddr.width
  require (width < size) (.invalidLength size)
  let symbols ← Base32.symbols body
  require (ChecksumCode.cashAddr.verify (expandTag tag) symbols) .checksumMismatch
  let octets ← regroup 5 8 false (symbols.take (symbols.length - width))
  readData octets

end WalletKeys.CashAddr
