import EquationSolver.CommandLine.Commands
import EquationSolver.CommandLine.Report
import EquationSolver.Json.Reader
import EquationSolver.Linear.Log
import EquationSolver.Root.Log

/-!
# Running a command

A run of the program turns its arguments and the files it can read into an exit code and two texts,
or ends in a fault that no command handles. The exit code is zero for a success or a list of values,
one for any other status, and two for unusable arguments, formulas and systems.

## Main definitions

* `Ending`: how a run of the program ends
* `runRoot`, `runLinear`, `runEval`: the runs of the commands
* `run`: the run of the program
-/

namespace EquationSolver.CommandLine

/-- A fault that no command handles. -/
inductive Fault where
  /-- A file cannot be read. -/
  | fileMissing (name : String)
  /-- A file does not hold JSON. -/
  | notJson (name : String)
  /-- A file holds a whole number with too many digits. -/
  | longNumber (name : String)
  /-- A file holds values that are nested too deeply. -/
  | tooDeep (name : String)
  /-- A file does not hold an object. -/
  | notObject (name : String)
  /-- A cell of a system is neither a number nor the text of one. -/
  | badCell (fault : Linear.ArrayFault)
  /-- A formula has no value at a point. -/
  | evaluation (cause : EvalError)
  /-- An option that stands for a number was given nothing. -/
  | emptyNumber
  /-- An option that stands for a formula was given nothing. -/
  | emptyFormula
  /-- An option that stands for a choice was given nothing. -/
  | emptyChoice

/-- The message of a fault. -/
def Fault.message : Fault → String
  | fileMissing name => "No such file: " ++ Text.quote name
  | notJson name => "Not a JSON file: " ++ Text.quote name
  | longNumber name => "Too many digits in a number: " ++ Text.quote name
  | tooDeep name => "Nested too deeply: " ++ Text.quote name
  | notObject name => "Not a JSON object: " ++ Text.quote name
  | badCell fault => fault.message
  | evaluation cause => cause.message
  | emptyNumber => "A number is missing."
  | emptyFormula => "A formula is missing."
  | emptyChoice => "A choice is missing."

/-- How a run of the program ends. -/
inductive Ending where
  /-- With an exit code and what was written to the two outputs. -/
  | exit (code : Nat) (output errors : String)
  /-- In a fault that no command handles. -/
  | failed (fault : Fault)

/-- What a command writes: its output, the log, and a line of its own after the log. -/
structure Written where
  /-- The exit code. -/
  code : Nat
  /-- The output. -/
  output : String := ""
  /-- The log. -/
  log : List LogLine := []
  /-- The complaint, if there is one. -/
  complaint : Option String := none

/-- The exit code of a status. -/
def exitCode (status : Status) : Nat := if status = .success then 0 else 1

/-! ## The commands -/

namespace RootArguments

/-- The request for a method that the arguments of `root` make. -/
def request (s : RootArguments) (method : Root.Method) : Root.Request where
  function := some s.expression
  method := some method
  tolerance := s.tol.toOption.getD 1e-8
  maxIterations := s.maxIter.toOption.getD 100
  phi := s.phi.bind Given.toOption
  derivative := s.derivative.bind Given.toOption
  a := s.a.bind Given.toOption
  b := s.b.bind Given.toOption
  initialGuess := s.x0.bind Given.toOption
  secondGuess := s.x1.bind Given.toOption

/-- The fault in numbers that a method reads together: it reads none of them unless all options are
used. -/
def numberFault? (numbers : List (Option (Given Float))) : Option Fault :=
  if numbers.all Option.isSome && numbers.any isGivenNothing then some .emptyNumber else none

/-- The fault in the arguments that a method itself reads, once the function is compiled. -/
def methodFault? (s : RootArguments) : Root.Method → Option Fault
  | .bisection | .regulaFalsi => numberFault? [s.a, s.b]
  | .secant => numberFault? [s.x0 <|> s.a, s.x1 <|> s.b]
  | .newton =>
    match s.derivative with
    | some .nothing => some .emptyFormula
    | some (.value text) =>
      if Text.isBlankText text || (Formula.compile text).isOk then numberFault? [s.x0] else none
    | none => numberFault? [s.x0]
  | .fixedPoint =>
    match s.phi with
    | some .nothing => some .emptyFormula
    | some (.value text) => if (Formula.compile text).isOk then numberFault? [s.x0] else none
    | none => none

/-- The fault of a run that comes to an option that was given nothing. Arguments are read in the
order in which a request is checked, and only as far as it is not refused. -/
def fault? (s : RootArguments) (method : Root.Method) : Option Fault :=
  let r := s.request method
  if Root.isMissing r.function then none
  else if s.tol.isNothing then some .emptyNumber
  else if ¬ 0 < r.tolerance then none
  else if s.maxIter.isNothing then some .emptyNumber
  else if r.maxIterations ≤ 0 then none
  else if (Formula.ofText? r.function).isOk then s.methodFault? method
  else none

end RootArguments

/-- The run of `root`. -/
def runRoot (s : RootArguments) : Except Fault Written :=
  match s.method with
  | .nothing => .error .emptyChoice
  | .value method =>
    match s.fault? method with
    | some fault => .error fault
    | none =>
      let solution := Root.solve (s.request method)
      let report := solution.report s.steps
      .ok { code := exitCode report.status, output := report.printed, log := solution.log }

/-- Why the arrays of a file make no system. -/
inductive SystemFault where
  /-- The file has no member of the given name. -/
  | memberMissing (name : String)
  /-- A member makes no array. -/
  | array (fault : Linear.ArrayFault)
  /-- The arrays do not fit. -/
  | shape (fault : Linear.ShapeFault)

/-- The system that a file holds. -/
def systemOf (data : Json) : Except SystemFault ((n : Nat) × Linear.LinearSystem Float n) := do
  let member (name : String) : Except SystemFault Json :=
    match data.member? name with
    | some j => .ok j
    | none => .error (.memberMissing name)
  let A ← member "A"
  let b ← member "b"
  let A ← (Linear.NestedArray.ofJson A).mapError .array
  let b ← (Linear.NestedArray.ofJson b).mapError .array
  (Linear.LinearSystem.ofArrays A b).mapError .shape

/-- The complaint about a file, if a fault of its system is handled. -/
def SystemFault.complaint : SystemFault → Except Fault String
  | memberMissing name => .ok (Text.quote name)
  | array .tooLarge => .error (.badCell .tooLarge)
  | array .badCell => .error (.badCell .badCell)
  | array fault => .ok fault.message
  | shape fault => .ok fault.message

namespace LinearArguments

/-- The parameters of a stationary method: there are some if a tolerance or a budget is given. -/
def params (s : LinearArguments) : Option (Linear.StationaryParams Float) :=
  if s.tol.isNone && s.maxIter.isNone then none
  else
    some ⟨(s.tol.bind Given.toOption).getD 1e-10, (s.maxIter.bind Given.toOption).getD 1000,
      .ok (s.stop.toOption.getD .residual)⟩

/-- The fault in the numbers that a method reads: the direct methods read none. -/
def numberFault? (s : LinearArguments) : Linear.Method → Option Fault
  | .direct _ => none
  | .stationary _ =>
    if isGivenNothing s.tol then some .emptyNumber
    else if ¬ 0 < ((s.tol.bind Given.toOption).getD 1e-10) then none
    else if isGivenNothing s.maxIter then some .emptyNumber
    else none

/-- The method, if the run does not come to an option that was given nothing. The stopping rule is
read only for parameters. -/
def readMethod (s : LinearArguments) : Except Fault Linear.Method :=
  if s.params.isSome && s.stop.isNothing then .error .emptyChoice
  else match s.method with
    | .nothing => .error .emptyChoice
    | .value method =>
      match s.numberFault? method with
      | some fault => .error fault
      | none => .ok method

end LinearArguments

/-- The object that a file holds. -/
def readObject (files : String → Option String) (name : String) : Except Fault Json :=
  match files name with
  | none => .error (.fileMissing name)
  | some text =>
    match Json.read text with
    | .error .malformed => .error (.notJson name)
    | .error .longNumber => .error (.longNumber name)
    | .error .tooDeep => .error (.tooDeep name)
    | .ok (.object members) => .ok (.object members)
    | .ok _ => .error (.notObject name)

/-- The run of `linear` with the files that can be read. -/
def runLinear (files : String → Option String) (s : LinearArguments) : Except Fault Written := do
  let data ← readObject files s.system
  match systemOf data with
  | .error fault =>
    let complaint ← fault.complaint
    return { code := 2, complaint := "invalid system file " ++ s.system ++ ": " ++ complaint }
  | .ok ⟨_, system⟩ =>
    let method ← s.readMethod
    let answer := system.solve method s.params
    let report := answer.report s.steps
    return { code := exitCode report.status, output := report.printed,
             log := system.log method answer }

/-- The line about the value of a formula at a point. -/
def valueLine (x value : Float) : String :=
  "f(" ++ generalText x ++ ") = " ++ shortestText value ++ "\n"

/-- The run of `eval`. -/
def runEval (s : EvalArguments) : Except Fault Written :=
  match Formula.compile s.expression with
  | .error cause => .ok { code := 2, complaint := "error: " ++ cause.message }
  | .ok f => do
    let lines ← s.points.mapM fun x =>
      match f.eval x with
      | .ok value => .ok (valueLine x value)
      | .error cause => .error (.evaluation cause)
    return { code := 0, output := "rpn: " ++ f.rpn ++ "\n" ++ String.join lines,
             log := [f.logLine] }

/-! ## The program -/

/-- The run of a command with the files that can be read. -/
def Command.run (files : String → Option String) : Command → Except Fault Written
  | root s => runRoot s
  | linear s => runLinear files s
  | eval s => runEval s

/-- What is written to the error output: the lines of the log that are shown, and the complaint. -/
def errorText (verbosity : Nat) (log : List LogLine) (complaint : Option String) : String :=
  let shown := (log.filter (LogLine.isShown verbosity)).map LogLine.render
  String.join ((shown ++ complaint.toList).map fun line => line ++ "\n")

/-- The run of an invocation with the files that can be read. -/
def Invocation.run (files : String → Option String) (i : Invocation) : Ending :=
  match i.command.run files with
  | .error fault => .failed fault
  | .ok written =>
    let first : LogLine := ⟨.debug, .commandLine, "arguments: " ++ i.shown⟩
    .exit written.code written.output
      (errorText i.verbosity (first :: written.log) written.complaint)

/-- The file that an invocation reads. -/
def Invocation.file? (i : Invocation) : Option String :=
  match i.command with
  | .linear s => some s.system
  | _ => none

/-- The run of the program with the given arguments and the files that can be read. -/
def run (files : String → Option String) (arguments : List String) : Ending :=
  match Invocation.parse arguments with
  | .ok invocation => invocation.run files
  | .error .help => .exit 0 "" ""
  | .error (.refused program cause) =>
    .exit 2 "" (program ++ ": error: " ++ cause.message ++ "\n")

end EquationSolver.CommandLine
