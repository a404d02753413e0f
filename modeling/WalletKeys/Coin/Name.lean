import WalletKeys.Text

/-!
# Coins, networks and address schemes

The names by which a wallet says what an address is for. Each is written in one way and read in any
case; networks and nested schemes also have a second spelling.
-/

namespace WalletKeys

/-- A coin of the table. -/
inductive Coin where
  | bitcoin
  | litecoin
  | dogecoin
  | dash
  | bitcoinCash
  | ethereum
  deriving DecidableEq, Repr

/-- A network of a coin. -/
inductive Network where
  | main
  | test
  | regtest
  deriving DecidableEq, Repr

/-- What an address commits to, and in which form. -/
inductive Scheme where
  | p2pkh
  | p2sh
  | p2wpkh
  | p2wsh
  | p2wpkhInP2sh
  | p2wshInP2sh
  deriving DecidableEq, Repr

namespace Coin

def all : List Coin := [bitcoin, litecoin, dogecoin, dash, bitcoinCash, ethereum]

def ticker : Coin → String
  | bitcoin => "btc"
  | litecoin => "ltc"
  | dogecoin => "doge"
  | dash => "dash"
  | bitcoinCash => "bch"
  | ethereum => "eth"

/-- The coin with a ticker, in any case. -/
def ofName? (name : String) : Option Coin :=
  all.find? fun coin => coin.ticker = Text.lowercase name

end Coin

namespace Network

def all : List Network := [main, test, regtest]

def name : Network → String
  | main => "main"
  | test => "test"
  | regtest => "reg"

def longName : Network → String
  | main => "mainnet"
  | test => "testnet"
  | regtest => "regtest"

/-- The network with either spelling, in any case. -/
def ofName? (name : String) : Option Network :=
  all.find? fun network =>
    network.name = Text.lowercase name ∨ network.longName = Text.lowercase name

end Network

namespace Scheme

def all : List Scheme := [p2pkh, p2sh, p2wpkh, p2wsh, p2wpkhInP2sh, p2wshInP2sh]

def name : Scheme → String
  | p2pkh => "p2pkh"
  | p2sh => "p2sh"
  | p2wpkh => "p2wpkh"
  | p2wsh => "p2wsh"
  | p2wpkhInP2sh => "p2wpkh-p2sh"
  | p2wshInP2sh => "p2wsh-p2sh"

/-- The spelling of a scheme with the outer form first. -/
def outerFirst : Scheme → String
  | p2wpkhInP2sh => "p2sh-p2wpkh"
  | p2wshInP2sh => "p2sh-p2wsh"
  | scheme => scheme.name

/-- The scheme with either spelling, in any case. -/
def ofName? (name : String) : Option Scheme :=
  all.find? fun scheme =>
    scheme.name = Text.lowercase name ∨ scheme.outerFirst = Text.lowercase name

/-- The scheme commits to a public key and not to a script. -/
def takesKey : Scheme → Bool
  | p2pkh | p2wpkh | p2wpkhInP2sh => true
  | p2sh | p2wsh | p2wshInP2sh => false

end Scheme

end WalletKeys
