import WalletKeys.Codec.Base58
import WalletKeys.Codec.CashAddr
import WalletKeys.Codec.Segwit
import WalletKeys.Coin.Table
import WalletKeys.Key.Public

/-!
# Addresses

An address commits to a public key or a script by a digest. The table tells the style of the coin
and what goes in front of the digest; what is not in the table has no address.
-/

namespace WalletKeys

/-- What an address commits to. -/
inductive Payload where
  | key (key : PublicKey)
  | script (script : Octets)
  deriving DecidableEq, Repr

/-- The script that spends to the digest of a key, which is itself put under a script address:
version zero and a push of twenty octets. -/
def PublicKey.witnessScript (key : PublicKey) : Octets :=
  0x00 :: 0x14 :: (hash160 key.shortOctets).octets

/-- The script that spends to the digest of a script: version zero and a push of 32 octets. -/
def witnessScriptOf (script : Octets) : Octets :=
  0x00 :: 0x20 :: (sha256 script).octets

namespace TableEntry

/-- The error of a combination that the table lacks. -/
def missing (entry : TableEntry) : WalletError :=
  .notInTable entry.coin entry.network.network entry.scheme.scheme

def requiredTag (entry : TableEntry) : Except WalletError String :=
  demand entry.network.tag entry.missing

/-- A digest behind the version octets of the scheme, in checked Base58. -/
def versioned (entry : TableEntry) (digest : Octets) : String :=
  Base58.encodeChecked (entry.scheme.version ++ digest)

def segwit (entry : TableEntry) (digest : Octets) : Except WalletError String := do
  let tag ← entry.requiredTag
  (Segwit.encode tag 0 digest).mapError WalletError.codec

def genericAddress (entry : TableEntry) (payload : Payload) : Except WalletError String :=
  match entry.scheme.scheme, payload with
  | .p2pkh, .key key => .ok (entry.versioned (hash160 key.octets).octets)
  | .p2sh, .script script => .ok (entry.versioned (hash160 script).octets)
  | .p2wpkhInP2sh, .key key => .ok (entry.versioned (hash160 key.witnessScript).octets)
  | .p2wshInP2sh, .script script =>
      .ok (entry.versioned (hash160 (witnessScriptOf script)).octets)
  | .p2wpkh, .key key => entry.segwit (hash160 key.shortOctets).octets
  | .p2wsh, .script script => entry.segwit (sha256 script).octets
  | scheme, _ => .error (.payloadMismatch scheme)

/-- The address of a key by the last twenty octets of the digest of its coordinates. -/
def ethereumAddress (entry : TableEntry) : Payload → Except WalletError String
  | .key key =>
      .ok ("0x" ++ Hex.encode ((keccak256 (key.longOctets.drop 1)).octets.drop 12))
  | .script _ => .error (.payloadMismatch entry.scheme.scheme)

def cashDigest (entry : TableEntry) (payload : Payload) : Except WalletError (Block 20) :=
  match entry.scheme.scheme, payload with
  | .p2pkh, .key key => .ok (hash160 key.octets)
  | .p2sh, .script script => .ok (hash160 script)
  | scheme, _ => .error (.payloadMismatch scheme)

/-- The address of a payload in CashAddr. A missing tag is noticed before the payload is looked
at. -/
def cashAddress (entry : TableEntry) (payload : Payload) : Except WalletError String := do
  let tag ← entry.requiredTag
  let digest ← entry.cashDigest payload
  (CashAddr.encode tag (entry.scheme.version.headD 0) digest.octets).mapError WalletError.codec

def address (entry : TableEntry) (payload : Payload) : Except WalletError String :=
  match entry.coin.style with
  | .generic => entry.genericAddress payload
  | .ethereum => entry.ethereumAddress payload
  | .cashAddr => entry.cashAddress payload

end TableEntry

def address (coin : Coin) (network : Network) (scheme : Scheme) (payload : Payload) :
    Except WalletError String := do
  let entry ← tableEntry coin network scheme
  entry.address payload

def addressOfKey (coin : Coin) (network : Network) (scheme : Scheme) (key : PublicKey) :
    Except WalletError String :=
  address coin network scheme (.key key)

def addressOfScript (coin : Coin) (network : Network) (scheme : Scheme) (script : Octets) :
    Except WalletError String :=
  address coin network scheme (.script script)

end WalletKeys
