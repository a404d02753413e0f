import WalletKeys.Digest.Keccak256
import WalletKeys.Digest.Ripemd160

/-!
# Digests of digests

HMAC over SHA-512, which seeds and extends key trees, and the compositions that addresses, checksums
and signed messages use.
-/

namespace WalletKeys

/-- The block length of SHA-512, to which a key is brought. -/
def hmacKeySize : Nat := 128

/-- A key as one full block: a longer key is digested first, a shorter one is filled with zeros. -/
def hmacKey (key : Octets) : Octets :=
  let short := if key.length > hmacKeySize then (sha512 key).octets else key
  short ++ List.replicate (hmacKeySize - short.length) 0

def hmacSha512 (key message : Octets) : Block 64 :=
  let full := hmacKey key
  let inner := sha512 (full.map (· ^^^ 0x36) ++ message)
  sha512 (full.map (· ^^^ 0x5c) ++ inner.octets)

def doubleSha256 (message : Octets) : Block 32 :=
  sha256 (sha256 message).octets

/-- RIPEMD-160 of SHA-256, by which addresses name a key or a script. -/
def hash160 (message : Octets) : Block 20 :=
  ripemd160 (sha256 message).octets

/-- The first four octets of the double digest, which guard a Base58 payload. -/
def checksum (payload : Octets) : Block 4 :=
  (show Block (4 + 28) from doubleSha256 payload).front

end WalletKeys
