import WalletKeys.Address
import WalletKeys.Codec.Regroup
import WalletKeys.Ecdsa.Recover
import WalletKeys.Text

/-!
# Signed messages

A message is digested behind a fixed line, and the signature is written in Base64: a header octet
and the two numbers. The header holds the recovery id and the kind of address that the signer
claims; to verify, the claim is not trusted, and every address that the recovered key may have is
tried.
-/

namespace WalletKeys.SignedMessage

def magic : Octets := Octets.ofText "Bitcoin Signed Message:\n"

/-- A length in the shortest of the forms of one, three, five and nine octets. -/
def compactSize (length : UInt64) : Octets :=
  if length < 0xfd then Octets.ofNatReversed 1 length.toNat
  else if length ≤ 0xffff then 0xfd :: Octets.ofNatReversed 2 length.toNat
  else if length ≤ 0xffffffff then 0xfe :: Octets.ofNatReversed 4 length.toNat
  else 0xff :: Octets.ofNatReversed 8 length.toNat

def sized (octets : Octets) : Octets :=
  compactSize (UInt64.ofNat octets.length) ++ octets

def format (message : Octets) : Octets :=
  sized magic ++ sized message

def digest (message : Octets) : Octets :=
  (doubleSha256 (format message)).octets

/-- The kind of address that a signer claims: of the digest of the long or the short form of the
key, or of a witness program that is nested in a script address or stands by itself. -/
inductive Claim where
  | longKey
  | shortKey
  | nestedWitness
  | witness
  deriving DecidableEq, Repr

namespace Claim

def all : List Claim := [longKey, shortKey, nestedWitness, witness]

def base : Claim → UInt8
  | longKey => 27
  | shortKey => 31
  | nestedWitness => 35
  | witness => 39

/-- The claim of a key for an address of its digest. -/
def ofCompression (compressed : Bool) : Claim :=
  if compressed then shortKey else longKey

def ofScheme (key : PrivateKey) : Scheme → Except WalletError Claim
  | .p2pkh => .ok (ofCompression key.compressed)
  | .p2wpkhInP2sh => .ok nestedWitness
  | .p2wpkh => .ok witness
  | scheme => .error (.unsupportedScheme scheme)

/-- The key is written in the short form under this claim. -/
def compressed : Claim → Bool
  | longKey => false
  | _ => true

def header (claim : Claim) (id : RecoveryId) : UInt8 :=
  claim.base + UInt8.ofNat id.toNat

def ofHeader (header : UInt8) : Except WalletError (Claim × RecoveryId) :=
  let found := all.findSome? fun claim =>
    if claim.base ≤ header then
      (RecoveryId.ofNat? (header - claim.base).toNat).map fun id => (claim, id)
    else none
  demand found (.invalidHeader header)

end Claim

/-- The text of a signature under a claim. A signer always records the recovery id. -/
def encode (claim : Claim) (signature : Signature) : String :=
  Base64.encode
    (claim.header (signature.recoveryId.getD ⟨false, false⟩) :: signature.compact)

/-- Signs a message under a claim, with the nonces of a random source. -/
def signWith? (claim : Claim) (key : PrivateKey) (message : Octets) (draws : Draws) :
    Option (String × Draws) :=
  (Ecdsa.sign? key (digest message) draws).map fun signed => (encode claim signed.1, signed.2)

def sign (key : PrivateKey) (message : Octets) (scheme : Scheme) (draws : Draws) :
    Except WalletError (Option (String × Draws)) := do
  let claim ← Claim.ofScheme key scheme
  return signWith? claim key message draws

def signText? (key : PrivateKey) (message : String) (draws : Draws) : Option (String × Draws) :=
  signWith? (Claim.ofCompression key.compressed) key (Octets.ofText message) draws

/-- The signature text without blanks around it and without a label that ends in a colon. -/
def withoutLabel (signature : String) : String :=
  let trimmed := Text.trimBlanks signature.toList
  match Text.splitLast? ':' trimmed with
  | some parts => String.ofList parts.2
  | none => String.ofList trimmed

/-- The key that signed a message, in the form that the header claims. -/
def recover (signature : String) (message : Octets) : Except WalletError PublicKey := do
  let octets ← demand (Base64.decode? (withoutLabel signature)) .invalidBase64
  require (octets.length = 65) (.invalidSignatureLength octets.length)
  let (claim, id) ← Claim.ofHeader (octets.headD 0)
  let numbers ← Signature.ofCompact (octets.drop 1)
  let key ← Ecdsa.recover id numbers (digest message)
  return key.withCompression claim.compressed

/-- The addresses that a key may have, each with its scheme. What is not in the table is left out.
-/
def candidates (coin : Coin) (network : Network) (key : PublicKey) : List (Scheme × String) :=
  let short := key.withCompression true
  let long := key.withCompression false
  [(Scheme.p2pkh, long), (.p2pkh, short), (.p2wpkhInP2sh, short), (.p2wpkh, short)].filterMap
    fun candidate =>
      (addressOfKey coin network candidate.1 candidate.2).toOption.map fun address =>
        (candidate.1, address)

/-- Addresses of this style and scheme may be given in upper case. -/
def isCaseFree : AddressStyle → Scheme → Bool
  | .cashAddr, _ => true
  | .generic, scheme => decide (scheme = .p2wpkh)
  | .ethereum, _ => false

/-- A text in which all letters are in upper case is put into lower case; any other stays as it is.
-/
def foldCase (text : String) : String :=
  if Text.hasLowercase text then text else Text.lowercase text

/-- A given address is the candidate. Addresses that are free of case may be in upper case, and
those of CashAddr may lack their tag. -/
def isSameAddress (style : AddressStyle) (scheme : Scheme) (candidate given : String) : Bool :=
  if isCaseFree style scheme then
    let folded := foldCase given
    folded == candidate ||
      style == .cashAddr &&
        (Text.splitFirst? ':' candidate.toList).any fun parts => String.ofList parts.2 == folded
  else candidate == given

def ownsAddress (coin : Coin) (network : Network) (key : PublicKey) (given : String) : Bool :=
  (candidates coin network key).any fun candidate =>
    isSameAddress coin.style candidate.1 candidate.2 given

/-- Accepts a signature of a message by the owner of an address. Blanks around the address do not
count. -/
def verify (coin : Coin) (network : Network) (address signature : String) (message : Octets) :
    Except WalletError Unit := do
  let key ← recover signature message
  require (ownsAddress coin network key (Text.trim address)) .noAddressMatch

/-- A signature of a text verifies for an address on some network of Bitcoin. -/
def verifyText (address signature message : String) : Bool :=
  Network.all.any fun network =>
    (verify .bitcoin network address signature (Octets.ofText message)).toBool

end WalletKeys.SignedMessage
