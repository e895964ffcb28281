import SelectorXPath.CommandLine

/-!
# The program

Runs a command on the arguments it was started with.
-/

open SelectorXPath

/-- Writes what the command reports and ends with its code. -/
def main (arguments : List String) : IO UInt32 := do
  let report := CommandLine.run (arguments.map String.toList)
  (← IO.getStdout).putStr (String.ofList report.output)
  (← IO.getStderr).putStr (String.ofList report.errors)
  return report.status.toUInt32
