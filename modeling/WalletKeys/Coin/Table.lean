import WalletKeys.Error
import WalletKeys.Hd.Versions

/-!
# The table of coins

For every coin how its addresses are written, and for each of its networks the octet of exported
secrets, the tag of its addresses, and for each scheme the version octets and the version words of
matching extended keys.
-/

namespace WalletKeys

/-- How a coin writes addresses: checked Base58 and segwit, a hexadecimal digest of the key, or
CashAddr. -/
inductive AddressStyle where
  | generic
  | ethereum
  | cashAddr
  deriving DecidableEq, Repr

/-- What the table holds for a scheme. `version` goes in front of the hash and is empty where the
address has none. -/
structure SchemeEntry where
  scheme : Scheme
  version : Octets
  versions : KeyVersions
  deriving DecidableEq, Repr

/-- What the table holds for a network. `wif` is the octet of exported secrets and `tag` the
readable part of segwit or CashAddr addresses. -/
structure NetworkEntry where
  network : Network
  wif : Option UInt8
  tag : Option String
  schemes : List SchemeEntry
  deriving DecidableEq, Repr

namespace CoinTable

def bitcoinMain : List SchemeEntry := [
  ⟨.p2pkh, [0x00], .xpub⟩,
  ⟨.p2sh, [0x05], .xpub⟩,
  ⟨.p2wpkhInP2sh, [0x05], .ypub⟩,
  ⟨.p2wshInP2sh, [0x05], .ypubMultisig⟩,
  ⟨.p2wpkh, [], .zpub⟩,
  ⟨.p2wsh, [], .zpubMultisig⟩]

def bitcoinTest : List SchemeEntry := [
  ⟨.p2pkh, [0x6f], .tpub⟩,
  ⟨.p2sh, [0xc4], .tpub⟩,
  ⟨.p2wpkhInP2sh, [0xc4], .upub⟩,
  ⟨.p2wshInP2sh, [0xc4], .upubMultisig⟩,
  ⟨.p2wpkh, [], .vpub⟩,
  ⟨.p2wsh, [], .vpubMultisig⟩]

def litecoinMain : List SchemeEntry := [
  ⟨.p2pkh, [0x30], .ltub⟩,
  ⟨.p2sh, [0x32], .ltub⟩,
  ⟨.p2wpkhInP2sh, [0x32], .mtub⟩,
  ⟨.p2wpkh, [], .zpub⟩,
  ⟨.p2wsh, [], .zpubMultisig⟩]

def litecoinTest : List SchemeEntry := [
  ⟨.p2pkh, [0x6f], .ttub⟩,
  ⟨.p2sh, [0x3a], .ttub⟩,
  ⟨.p2wpkhInP2sh, [0x3a], .upub⟩,
  ⟨.p2wpkh, [], .vpub⟩,
  ⟨.p2wsh, [], .vpubMultisig⟩]

def dogecoinMain : List SchemeEntry := [
  ⟨.p2pkh, [0x1e], .dgub⟩,
  ⟨.p2sh, [0x16], .dgub⟩]

def dogecoinTest : List SchemeEntry := [
  ⟨.p2pkh, [0x71], .tpub⟩,
  ⟨.p2sh, [0xc4], .tpub⟩]

def dashMain : List SchemeEntry := [
  ⟨.p2pkh, [0x4c], .xpub⟩,
  ⟨.p2sh, [0x10], .xpub⟩]

def dashTest : List SchemeEntry := [
  ⟨.p2pkh, [0x8c], .tpub⟩,
  ⟨.p2sh, [0x13], .tpub⟩]

/-- The version octet of CashAddr is the kind of the address over the size code zero. -/
def bitcoinCashMain : List SchemeEntry := [
  ⟨.p2pkh, [0x00], .xpub⟩,
  ⟨.p2sh, [0x08], .xpub⟩]

def bitcoinCashTest : List SchemeEntry := [
  ⟨.p2pkh, [0x00], .tpub⟩,
  ⟨.p2sh, [0x08], .tpub⟩]

def ethereumAll : List SchemeEntry := [⟨.p2pkh, [], .xpub⟩]

end CoinTable

namespace Coin

open CoinTable

def style : Coin → AddressStyle
  | bitcoin | litecoin | dogecoin | dash => .generic
  | bitcoinCash => .cashAddr
  | ethereum => .ethereum

def networks : Coin → List NetworkEntry
  | bitcoin => [
      ⟨.main, some 0x80, some "bc", bitcoinMain⟩,
      ⟨.test, some 0xef, some "tb", bitcoinTest⟩,
      ⟨.regtest, some 0xef, some "bcrt", bitcoinTest⟩]
  | litecoin => [
      ⟨.main, some 0xb0, some "ltc", litecoinMain⟩,
      ⟨.test, some 0xef, some "tltc", litecoinTest⟩,
      ⟨.regtest, some 0xef, some "rltc", litecoinTest⟩]
  | dogecoin => [
      ⟨.main, some 0x9e, none, dogecoinMain⟩,
      ⟨.test, some 0xf1, none, dogecoinTest⟩]
  | dash => [
      ⟨.main, some 0xcc, none, dashMain⟩,
      ⟨.test, some 0xef, none, dashTest⟩,
      ⟨.regtest, some 0xef, none, dashTest⟩]
  | bitcoinCash => [
      ⟨.main, some 0x80, some "bitcoincash", bitcoinCashMain⟩,
      ⟨.test, some 0xef, some "bchtest", bitcoinCashTest⟩,
      ⟨.regtest, some 0xef, some "bchreg", bitcoinCashTest⟩]
  | ethereum => [
      ⟨.main, none, none, ethereumAll⟩,
      ⟨.test, none, none, ethereumAll⟩,
      ⟨.regtest, none, none, ethereumAll⟩]

def network? (coin : Coin) (network : Network) : Option NetworkEntry :=
  coin.networks.find? fun entry => entry.network = network

end Coin

def NetworkEntry.scheme? (entry : NetworkEntry) (scheme : Scheme) : Option SchemeEntry :=
  entry.schemes.find? fun candidate => candidate.scheme = scheme

/-- A coin, a network and a scheme with what the table holds for them. -/
structure TableEntry where
  coin : Coin
  network : NetworkEntry
  scheme : SchemeEntry
  deriving DecidableEq, Repr

/-- The entry of a network that has to be there. The error names the first of the schemes. -/
def networkEntry (coin : Coin) (network : Network) : Except WalletError NetworkEntry :=
  demand (coin.network? network) (.notInTable coin network .p2pkh)

def tableEntry (coin : Coin) (network : Network) (scheme : Scheme) :
    Except WalletError TableEntry := do
  let networkEntry ← demand (coin.network? network) (.notInTable coin network scheme)
  let schemeEntry ← demand (networkEntry.scheme? scheme) (.notInTable coin network scheme)
  return ⟨coin, networkEntry, schemeEntry⟩

/-- The two forms of an extended key. -/
inductive KeyForm where
  | publicForm
  | privateForm
  deriving DecidableEq, Repr

/-- The form that a word begins under given version words. The public word is looked at first. -/
def KeyVersions.form? (versions : KeyVersions) (word : UInt32) : Option KeyForm :=
  if versions.publicWord = word then some .publicForm
  else if versions.privateWord = word then some .privateForm
  else none

def tableVersions : List KeyVersions :=
  Coin.all.flatMap fun coin =>
    coin.networks.flatMap fun network => network.schemes.map SchemeEntry.versions

/-- The version words of the table to which a word belongs, and the form that it begins. -/
def findVersions? (word : UInt32) : Option (KeyVersions × KeyForm) :=
  tableVersions.findSome? fun versions =>
    (versions.form? word).map fun form => (versions, form)

end WalletKeys
