import Calculator.CommandLine

/-!
# The command line program

Prints what the run prints, and a closing message to the error stream.
-/
open Calculator

def main (arguments : List String) : IO UInt32 := do
  let run := CommandLine.run (arguments.map String.toList)
  IO.print (String.ofList (CommandLine.output run))
  match run.exit with
  | none => return 0
  | some (.message text) =>
    IO.eprintln (String.ofList text)
    return 1
  | some (.status code) => return code.toUInt32
