import WalletKeys.Codec.Regroup
import WalletKeys.Coin.Name
import WalletKeys.Secp256k1.Sec1

/-!
# Errors of keys, signatures, addresses and messages
-/

namespace WalletKeys

/-- A kind of name that can be unknown. -/
inductive NameKind where
  | coin
  | network
  | scheme
  deriving DecidableEq, Repr

def NameKind.text : NameKind → String
  | coin => "coin"
  | network => "network"
  | scheme => "address scheme"

/-- Why an operation of a wallet has no result. -/
inductive WalletError where
  | codec (cause : CodecError)
  | curve (cause : Secp256k1.CurveError)
  | secretOutOfRange
  | invalidKeyLength (length : Nat)
  | signatureOutOfRange
  | invalidRecoveryId (id : UInt8)
  | noRecovery
  | invalidHeader (header : UInt8)
  | invalidSignatureLength (length : Nat)
  | invalidBase64
  | noAddressMatch
  | notInTable (coin : Coin) (network : Network) (scheme : Scheme)
  | payloadMismatch (scheme : Scheme)
  | unsupportedScheme (scheme : Scheme)
  | wifMismatch (version : UInt8)
  | unknownName (kind : NameKind) (name : String)
  deriving DecidableEq, Repr

namespace WalletError

def message : WalletError → String
  | codec cause => "encoding error: " ++ cause.message
  | curve cause => "curve error: " ++ cause.message
  | secretOutOfRange => "private key out of range"
  | invalidKeyLength length => "invalid private key length: " ++ toString length
  | signatureOutOfRange => "signature component out of range"
  | invalidRecoveryId id => "invalid recovery id " ++ toString id.toNat
  | noRecovery => "cannot recover a public key from this signature"
  | invalidHeader header => "invalid signature header byte " ++ toString header.toNat
  | invalidSignatureLength length => "invalid signature length: " ++ toString length
  | invalidBase64 => "signature is not valid base64"
  | noAddressMatch => "signature does not match the address"
  | notInTable coin network scheme =>
      "no prefix available for " ++ coin.ticker ++ " " ++ network.name ++ " " ++ scheme.name
  | payloadMismatch scheme =>
      "address scheme " ++ scheme.name ++ " does not accept this payload"
  | unsupportedScheme scheme =>
      "address scheme " ++ scheme.name ++ " is not supported for message signatures"
  | wifMismatch version =>
      "WIF version byte 0x" ++ Hex.encode [version] ++ " does not match the requested network"
  | unknownName kind name => "unknown " ++ kind.text ++ " " ++ Text.quote name

end WalletError

def Coin.parse (name : String) : Except WalletError Coin :=
  demand (Coin.ofName? name) (.unknownName .coin name)

def Network.parse (name : String) : Except WalletError Network :=
  demand (Network.ofName? name) (.unknownName .network name)

def Scheme.parse (name : String) : Except WalletError Scheme :=
  demand (Scheme.ofName? name) (.unknownName .scheme name)

end WalletKeys
