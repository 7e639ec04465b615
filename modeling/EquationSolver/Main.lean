import EquationSolver.CommandLine.Run

/-!
# The program

Reads the file that the command line names, runs the command and prints what it wrote.
-/

open EquationSolver.CommandLine

/-- The text of a file, if it can be read. -/
def readIfPresent (name : String) : IO (Option String) := do
  try
    return some (← IO.FS.readFile name)
  catch _ =>
    return none

/-- The program. -/
def main (arguments : List String) : IO UInt32 := do
  let name? := (Invocation.parse arguments).toOption.bind Invocation.file?
  let text? ← match name? with
    | some name => readIfPresent name
    | none => pure none
  match run (fun name => if some name = name? then text? else none) arguments with
  | .exit code output errors =>
    IO.print output
    IO.eprint errors
    return code.toUInt32
  | .failed fault =>
    IO.eprintln fault.message
    return 1
