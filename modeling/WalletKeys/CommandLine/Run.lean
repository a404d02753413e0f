import WalletKeys.CommandLine.Arguments
import WalletKeys.Hd.Tree
import WalletKeys.Key.Wif
import WalletKeys.SignedMessage

/-!
# Answering a request

A request is answered by lines of text and, if it fails on the way, by one line that gives the
cause. Lines that were ready before the failure are still shown.
-/

namespace WalletKeys.CommandLine

/-- What a request leads to: lines, and the cause of a failure if there is one. -/
structure Report where
  lines : List String
  failure : Option String
  deriving DecidableEq, Repr

namespace Report

def success (lines : List String) : Report := ⟨lines, none⟩

def failed (cause : String) : Report := ⟨[], some cause⟩

/-- The report with lines in front. -/
def after (lines : List String) (report : Report) : Report :=
  { report with lines := lines ++ report.lines }

end Report

/-- The text of an error followed by the text of what it wraps. -/
def causes (error : WalletError) : String :=
  match error with
  | .codec cause => error.message ++ ": " ++ cause.message
  | .curve cause => error.message ++ ": " ++ cause.message
  | _ => error.message

def labelled (label text : String) : String :=
  label ++ ": " ++ text

/-- The lines of a key: its public key, its exported secret where the network has such a form, and
its address. -/
def reportKey (target : Target) (key : PrivateKey) : Report :=
  let publicKey := labelled "public key" (Hex.encode key.publicKey.octets)
  let exported := match key.toWif target.coin target.network with
    | .ok text => [labelled "wif" text]
    | .error _ => []
  let address := match addressOfKey target.coin target.network target.scheme key.publicKey with
    | .ok text => Report.success [labelled "address" text]
    | .error error => Report.failed (causes error)
  address.after (publicKey :: exported)

/-- The lines of a node: its texts, and the lines of its key or the address of its public key. -/
def reportNode (target : Target) (node : ExtendedKey) : Report :=
  let publicLine := labelled "xpub" node.toPublic.text
  match node with
  | .privateNode node =>
      (reportKey target node.key).after [labelled "xprv" node.text, publicLine]
  | .publicNode node =>
      let address := match addressOfKey target.coin target.network target.scheme node.key with
        | .ok text => Report.success [labelled "address" text]
        | .error error => Report.failed (causes error)
      address.after [publicLine]

/-- The tree of a source. The version words of a seed's tree are those of the target. -/
def treeOf (target : Target) : TreeSource → Except String HdTree
  | .seed digits => do
      let seed ← (Hex.decode digits).mapError fun error =>
        "seed should be a hex string: " ++ error.message
      let entry ← (tableEntry target.coin target.network target.scheme).mapError causes
      (HdTree.ofSeed seed entry.scheme.versions).mapError DerivationError.message
  | .extendedKey text anchor => (HdTree.ofText text anchor).mapError DerivationError.message

def reportDerived (target : Target) (source : TreeSource) (path : String) : Report :=
  match treeOf target source with
  | .error cause => .failed cause
  | .ok tree =>
      match tree.derive path with
      | .error error => .failed error.message
      | .ok node => reportNode target node

/-- The address of a public key or script in hexadecimal digits. -/
def addressOf (target : Target) (data : String) : Except String String := do
  let octets ← (Hex.decode data).mapError fun error => "expected hex: " ++ error.message
  if target.scheme.takesKey then
    let key ← (PublicKey.ofOctets octets).mapError causes
    (addressOfKey target.coin target.network target.scheme key).mapError causes
  else
    (addressOfScript target.coin target.network target.scheme octets).mapError causes

def exhausted : String := "the random source gave out"

def reportGenerated (target : Target) (compressed : Bool) (draws : Draws) : Report :=
  match PrivateKey.generate? draws with
  | none => .failed exhausted
  | some (key, _) => reportKey target (key.withCompression compressed)

def signatureOf (target : Target) (wif message : String) (draws : Draws) :
    Except String String := do
  let key ← (PrivateKey.ofWif wif target.coin target.network).mapError causes
  let signed ← (SignedMessage.sign key (Octets.ofText message) target.scheme draws).mapError causes
  match signed with
  | none => throw exhausted
  | some (text, _) => return text

def verdict (target : Target) (address signature message : String) : Except String String := do
  let verified := SignedMessage.verify target.coin target.network address signature
    (Octets.ofText message)
  verified.mapError fun error => "signature does not verify for " ++ address ++ ": " ++ causes error
  return "valid"

def reportLine : Except String String → Report
  | .ok line => .success [line]
  | .error cause => .failed cause

def versionLine : String := "coinkey 0.1.0"

/-- The answer to a request, with a random source for fresh keys and nonces. -/
def Request.report (draws : Draws) : Request → Report
  | .version => .success [versionLine]
  | .derive target source path => reportDerived target source path
  | .address target data => reportLine (addressOf target data)
  | .generate target compressed => reportGenerated target compressed draws
  | .sign target wif message => reportLine (signatureOf target wif message draws)
  | .verify target location signature message =>
      reportLine (verdict target location signature message)

/-- How the program ends and what it writes. -/
structure Outcome where
  exitCode : UInt32
  output : String
  errors : String
  deriving DecidableEq, Repr

def usage : String :=
  "usage: coinkey derive|address|keygen|sign|verify [options] arguments\n"

def unlines (lines : List String) : String :=
  String.join (lines.map fun line => line ++ "\n")

def Report.outcome (report : Report) : Outcome :=
  match report.failure with
  | none => ⟨0, unlines report.lines, ""⟩
  | some cause => ⟨1, unlines report.lines, "error: " ++ cause ++ "\n"⟩

def run (draws : Draws) (arguments : List String) : Outcome :=
  match Request.parse? arguments with
  | none => ⟨2, "", usage⟩
  | some request => (request.report draws).outcome

end WalletKeys.CommandLine
