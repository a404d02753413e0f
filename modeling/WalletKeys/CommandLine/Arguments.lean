import WalletKeys.Coin.Name
import WalletKeys.Text

/-!
# Arguments of the command line

A verb is followed by its options and positional arguments in any order. An option is given by its
long or its short name; its value follows in the same argument, with or without an equals sign, or
in the next one. Short names may be written together behind one dash. After `--` all arguments are
positional. An option is given at most once.
-/

namespace WalletKeys.CommandLine

/-- An option of a verb. -/
structure OptionName where
  long : String
  short : Option Char
  takesValue : Bool
  deriving DecidableEq, Repr

/-- What has been read of the arguments: options with their values, positional arguments in order,
the option that waits for its value, and whether all that follows is positional. -/
structure Scan where
  given : List (String × String)
  positionals : List String
  awaiting : Option String
  positionalOnly : Bool
  deriving DecidableEq, Repr

namespace Scan

def start : Scan := ⟨[], [], none, false⟩

def value? (scan : Scan) (option : String) : Option String :=
  scan.given.lookup option

/-- Records an option with its value, unless it was given before. -/
def give (scan : Scan) (option value : String) : Option Scan :=
  if (scan.value? option).isSome then none
  else some { scan with given := scan.given ++ [(option, value)], awaiting := none }

/-- Records an option that stands without a value beside it. -/
def mention (scan : Scan) (option : OptionName) : Option Scan :=
  if option.takesValue then
    if (scan.value? option.long).isSome then none
    else some { scan with awaiting := some option.long }
  else scan.give option.long ""

def pushPositional (scan : Scan) (argument : String) : Scan :=
  { scan with positionals := scan.positionals ++ [argument] }

/-- Reads an option by its long name, with what stands behind an equals sign as its value. -/
def long (options : List OptionName) (scan : Scan) (name : List Char) : Option Scan :=
  match Text.splitFirst? '=' name with
  | some (name, value) => do
      let option ← options.find? fun option => option.long = String.ofList name
      if option.takesValue then scan.give option.long (String.ofList value) else none
  | none => do
      let option ← options.find? fun option => option.long = String.ofList name
      scan.mention option

/-- Reads short names written together. What follows the name of an option that takes a value is
that value. -/
def short (options : List OptionName) : Scan → List Char → Option Scan
  | scan, [] => some scan
  | scan, name :: rest =>
      match options.find? fun option => option.short = some name with
      | none => none
      | some option =>
          if option.takesValue then
            match rest with
            | [] => scan.mention option
            | '=' :: value => scan.give option.long (String.ofList value)
            | value => scan.give option.long (String.ofList value)
          else
            match scan.mention option with
            | none => none
            | some scan => short options scan rest

def push (options : List OptionName) (scan : Scan) (argument : String) : Option Scan :=
  if scan.positionalOnly then some (scan.pushPositional argument)
  else
    match scan.awaiting, argument.toList with
    | some _, '-' :: _ :: _ => none
    | some option, _ => scan.give option argument
    | none, ['-', '-'] => some { scan with positionalOnly := true }
    | none, '-' :: '-' :: name => long options scan name
    | none, '-' :: first :: rest => short options scan (first :: rest)
    | none, _ => some (scan.pushPositional argument)

/-- Reads all arguments; no option may be left without its value. -/
def read (options : List OptionName) (arguments : List String) : Option Scan := do
  let scan ← arguments.foldlM (push options) start
  if scan.awaiting.isSome then none else some scan

end Scan

/-- The coin, network and scheme that a request is about. -/
structure Target where
  coin : Coin
  network : Network
  scheme : Scheme
  deriving DecidableEq, Repr

/-- Where a tree comes from: a seed in hexadecimal digits, or an extended key at a path. -/
inductive TreeSource where
  | seed (digits : String)
  | extendedKey (text anchor : String)
  deriving DecidableEq, Repr

/-- What the command line asks for. -/
inductive Request where
  | version
  | derive (target : Target) (source : TreeSource) (path : String)
  | address (target : Target) (data : String)
  | generate (target : Target) (compressed : Bool)
  | sign (target : Target) (wif message : String)
  | verify (target : Target) (address signature message : String)
  deriving DecidableEq, Repr

namespace Scan

/-- The target of the options. Its names are written exactly as the table writes them. -/
def target? (scan : Scan) : Option Target := do
  let coin ← Coin.all.find? fun coin =>
    coin.ticker = (scan.value? "coin").getD Coin.bitcoin.ticker
  let network ← Network.all.find? fun network =>
    network.name = (scan.value? "network").getD Network.main.name
  let scheme ← Scheme.all.find? fun scheme =>
    scheme.name = (scan.value? "scheme").getD Scheme.p2pkh.name
  return ⟨coin, network, scheme⟩

/-- The source of a tree; a seed and an extended key exclude each other, and one has to be given. -/
def source? (scan : Scan) : Option TreeSource :=
  match scan.value? "seed", scan.value? "xkey" with
  | some digits, none => some (.seed digits)
  | none, some text => some (.extendedKey text ((scan.value? "anchor").getD "m"))
  | _, _ => none

end Scan

/-- The first argument, which says what is asked for. -/
inductive Verb where
  | derive
  | address
  | keygen
  | sign
  | verify
  deriving DecidableEq, Repr

namespace Verb

def ofName? (name : String) : Option Verb :=
  if name = "derive" ∨ name = "32" then some derive
  else if name = "address" then some address
  else if name = "keygen" then some keygen
  else if name = "sign" then some sign
  else if name = "verify" then some verify
  else none

def targetOptions : List OptionName := [
  ⟨"coin", some 'c', true⟩,
  ⟨"network", some 'n', true⟩,
  ⟨"scheme", none, true⟩]

def options : Verb → List OptionName
  | derive => targetOptions ++ [
      ⟨"seed", some 's', true⟩,
      ⟨"xkey", some 'x', true⟩,
      ⟨"anchor", some 'a', true⟩]
  | keygen => targetOptions ++ [⟨"uncompressed", some 'u', false⟩]
  | _ => targetOptions

def request? (verb : Verb) (scan : Scan) : Option Request := do
  let target ← scan.target?
  match verb, scan.positionals with
  | derive, [path] => scan.source?.map fun source => .derive target source path
  | address, [data] => some (.address target data)
  | keygen, [] => some (.generate target (scan.value? "uncompressed").isNone)
  | sign, [wif, message] => some (.sign target wif message)
  | verify, [location, signature, message] => some (.verify target location signature message)
  | _, _ => none

end Verb

/-- The request of all arguments behind the program's name. -/
def Request.parse? : List String → Option Request
  | [] => none
  | first :: rest =>
      if first = "--version" ∨ first.toList.take 2 = ['-', 'V'] then some .version
      else do
        let verb ← Verb.ofName? first
        let scan ← Scan.read verb.options rest
        verb.request? scan

end WalletKeys.CommandLine
