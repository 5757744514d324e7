import CausalWeave.CommandLine

open CausalWeave in
def main (arguments : List String) : IO UInt32 := do
  let result := CommandLine.result arguments
  (← IO.getStdout).putStr result.output
  (← IO.getStderr).putStr result.errors
  return result.exitCode.toUInt32
