import Formula.CommandLine.Help

/-!
The program: it reads its arguments and input, prints, and ends with a status.
-/

open Formula

def main (arguments : List String) : IO UInt32 := do
  let readsInput :=
    match CommandLine.readArguments arguments with
    | .ok invocation => invocation.readsInput
    | .error _ => false
  let input ← if readsInput then (← IO.getStdin).readToEnd else pure ""
  let outcome := CommandLine.run CommandLine.readArguments arguments input
  IO.print outcome.output
  for complaint in outcome.complaints do
    IO.eprintln complaint
  return outcome.status.toUInt32
