import WalletKeys.CommandLine.Run

/-!
# The program
-/

open WalletKeys

def systemDraws (count : Nat) : IO Draws := do
  let mut draws := []
  for _ in [0:count] do
    let octets ← IO.getRandomBytes 32
    match Block.ofOctets? 32 octets.toList with
    | some block => draws := block :: draws
    | none => pure ()
  return draws

/-- Answers the arguments, with blocks for far more keys and nonces than a request can ask for. -/
def main (arguments : List String) : IO UInt32 := do
  let draws ← systemDraws 64
  let outcome := CommandLine.run draws arguments
  (← IO.getStdout).putStr outcome.output
  (← IO.getStderr).putStr outcome.errors
  return outcome.exitCode
