import WalletKeys.Codec.Base58
import WalletKeys.Coin.Table
import WalletKeys.Key.Private

/-!
# Wallet import format

A secret is exported in checked Base58: the octet of its network, 32 octets, and one more octet `01`
if its public key is written in the short form.
-/

namespace WalletKeys

/-- The octet that exported secrets of a network begin with. -/
def wifVersion (coin : Coin) (network : Network) : Except WalletError UInt8 := do
  let entry ← networkEntry coin network
  demand entry.wif (.notInTable coin network .p2pkh)

namespace PrivateKey

def exported (key : PrivateKey) : Octets :=
  key.octets ++ if key.compressed then [0x01] else []

def toWif (key : PrivateKey) (coin : Coin) (network : Network) : Except WalletError String := do
  let version ← wifVersion coin network
  return Base58.encodeChecked (version :: key.exported)

/-- Whether an exported secret with its leading octet is one of a key in the short form; no other
length and no other last octet is known. -/
def wifForm (payload : Octets) : Except WalletError Bool :=
  if payload.length = 33 then .ok false
  else if payload.length = 34 ∧ payload.getLast? = some 0x01 then .ok true
  else .error (.invalidKeyLength payload.length)

def ofWif (text : String) (coin : Coin) (network : Network) : Except WalletError PrivateKey := do
  let expected ← wifVersion coin network
  let payload ← (Base58.decodeChecked text).mapError WalletError.codec
  let compressed ← wifForm payload
  let version := payload.headD 0
  require (version = expected) (.wifMismatch version)
  let key ← ofOctets ((payload.drop 1).take 32)
  return key.withCompression compressed

end PrivateKey

end WalletKeys
