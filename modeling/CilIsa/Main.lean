import CilIsa.Inspector.Command

/-!
# The command line

Prints what a run of the inspector leaves behind. The environment variable `CIL_TRACE` turns tracing
on from the start.
-/

open CilIsa

def main (args : List String) : IO UInt32 := do
  let tracing := traceRequested (← IO.getEnv "CIL_TRACE")
  let outcome := Inspector.run tracing args
  IO.eprint outcome.trace
  IO.print outcome.out
  IO.eprint outcome.err
  return outcome.exit
