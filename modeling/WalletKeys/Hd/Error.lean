import WalletKeys.Codec.Regroup
import WalletKeys.Secp256k1.Sec1

/-!
# Errors of key trees
-/

namespace WalletKeys

/-- Why a key of a tree cannot be made, read or reached. -/
inductive DerivationError where
  | invalidSeedLength (length : Nat)
  | invalidSeed
  | invalidChild
  | hardenedFromPublic
  | badPath
  | anchorMismatch
  | publicOnly
  | invalidPayloadLength
  | badVersion (word : UInt32)
  | badKeyData
  | invalidRootFields
  | depthOverflow
  | codec (cause : CodecError)
  | curve (cause : Secp256k1.CurveError)
  deriving DecidableEq, Repr

/-- The text of an error; a codec or curve error speaks for itself. -/
def DerivationError.message : DerivationError → String
  | invalidSeedLength length => "seed must be 16 to 64 bytes, got " ++ toString length
  | invalidSeed => "seed produced an invalid master key"
  | invalidChild => "invalid child key (I_L out of range or zero)"
  | hardenedFromPublic => "cannot derive a hardened child from a public key"
  | badPath => "invalid derivation path"
  | anchorMismatch => "path does not start at this tree's anchor"
  | publicOnly => "tree holds no private key"
  | invalidPayloadLength => "extended key payload must be 78 bytes"
  | badVersion word =>
      "unrecognized or unexpected version word 0x" ++ Hex.ofNat 8 word.toNat
  | badKeyData => "key data field malformed"
  | invalidRootFields => "depth 0 requires zero parent fingerprint and child number"
  | depthOverflow => "maximum derivation depth (255) exceeded"
  | codec cause => cause.message
  | curve cause => cause.message

end WalletKeys
