import EquationSolver.CommandLine.Options
import EquationSolver.Decimal.Format
import EquationSolver.Decimal.Numeral
import EquationSolver.Linear.Solve
import EquationSolver.Root.Outcome

/-!
# The commands

The program has three commands: `root` finds a root of a formula, `linear` solves a system that is
stored in a file, and `eval` evaluates a formula at points. Each has options of its own.

## Main definitions

* `RootArguments`, `LinearArguments`, `EvalArguments`, `Command`: the arguments of the commands
* `Invocation.parse`: the invocation that a row of texts makes
* `Invocation.shown`: the arguments as the log shows them
-/

namespace EquationSolver.CommandLine

/-- The name of the program. -/
def programName : String := "numsolve"

/-- The arguments of `root`. -/
structure RootArguments where
  /-- The text of the function. -/
  expression : String := ""
  /-- The method. -/
  method : Given Root.Method := .value .bisection
  /-- The left end of the bracket. -/
  a : Option (Given Float) := none
  /-- The right end of the bracket. -/
  b : Option (Given Float) := none
  /-- The first guess. -/
  x0 : Option (Given Float) := none
  /-- The second guess. -/
  x1 : Option (Given Float) := none
  /-- The text of the function whose fixed point is looked for. -/
  phi : Option (Given String) := none
  /-- The text of the derivative. -/
  derivative : Option (Given String) := none
  /-- The tolerance. -/
  tol : Given Float := .value 1e-8
  /-- The budget. -/
  maxIter : Given Int := .value 100
  /-- Whether the trace is printed. -/
  steps : Bool := false

/-- The arguments of `linear`. -/
structure LinearArguments where
  /-- The name of the file with the system. -/
  system : String := ""
  /-- The method. -/
  method : Given Linear.Method := .value (.direct (.gauss .column))
  /-- The tolerance. -/
  tol : Option (Given Float) := none
  /-- The budget. -/
  maxIter : Option (Given Int) := none
  /-- What the stopping test measures. -/
  stop : Given Linear.StopRule := .value .residual
  /-- Whether the trace is printed. -/
  steps : Bool := false

/-- The arguments of `eval`. -/
structure EvalArguments where
  /-- The text of the function. -/
  expression : String := ""
  /-- The points. -/
  points : List Float := []

/-- A command with its arguments. -/
inductive Command where
  | root (arguments : RootArguments)
  | linear (arguments : LinearArguments)
  | eval (arguments : EvalArguments)

/-- An invocation of the program. -/
structure Invocation where
  /-- How much the log shows. -/
  verbosity : Nat
  /-- What is to be done. -/
  command : Command

/-! ## Values -/

/-- The double that a text writes. -/
def floatValue (text : String) : Except ValueFault Float :=
  match readFloat? text with
  | some x => .ok x
  | none => .error (.notNumber "float" text)

/-- The whole number that a text writes. -/
def intValue (text : String) : Except ValueFault Int :=
  match readInt? text with
  | some n => .ok n
  | none => .error (.notNumber "int" text)

/-- The choice that a text names. -/
def choiceValue {α : Type} (choices : List (α × String)) (text : String) : Except ValueFault α :=
  match choices.find? fun p => p.2 = text with
  | some (x, _) => .ok x
  | none => .error (.notChoice text (choices.map Prod.snd))

/-! ## Grammars -/

variable {σ α : Type}

/-- An option that takes a value and reads it. -/
def valued (names : List String) (read : String → Except ValueFault α) (set : Given α → σ → σ) :
    OptionSpec σ :=
  ⟨names, .value fun given s => (given.read read).map fun x => set x s⟩

/-- An option whose value is the text itself. -/
def textual (names : List String) (set : Given String → σ → σ) : OptionSpec σ :=
  valued names Except.ok set

/-- The option that asks for help. -/
def helpOption : OptionSpec σ := ⟨["-h", "--help"], .help⟩

/-- A positional argument of one text. -/
def single (name : String) (set : String → σ → σ) : Positional σ :=
  ⟨name, .one, fun texts s => .ok (set (texts.headD "") s)⟩

/-- The grammar of `root`. -/
def rootGrammar : Grammar RootArguments where
  options := [
    helpOption,
    valued ["--method"] (choiceValue (Root.Method.all.map fun m => (m, m.name)))
      fun m s => { s with method := m },
    valued ["-a"] floatValue fun x s => { s with a := some x },
    valued ["-b"] floatValue fun x s => { s with b := some x },
    valued ["--x0"] floatValue fun x s => { s with x0 := some x },
    valued ["--x1"] floatValue fun x s => { s with x1 := some x },
    textual ["--phi"] fun text s => { s with phi := some text },
    textual ["--derivative"] fun text s => { s with derivative := some text },
    valued ["--tol"] floatValue fun x s => { s with tol := x },
    valued ["--max-iter"] intValue fun n s => { s with maxIter := n },
    ⟨["--steps"], .flag fun s => { s with steps := true }⟩]
  positionals := [single "expression" fun text s => { s with expression := text }]

/-- The grammar of `linear`. -/
def linearGrammar : Grammar LinearArguments where
  options := [
    helpOption,
    valued ["--method"] (choiceValue Linear.Method.named) fun m s => { s with method := m },
    valued ["--tol"] floatValue fun x s => { s with tol := some x },
    valued ["--max-iter"] intValue fun n s => { s with maxIter := some n },
    valued ["--stop"] (choiceValue (Linear.StopRule.all.map fun r => (r, r.name)))
      fun r s => { s with stop := r },
    ⟨["--steps"], .flag fun s => { s with steps := true }⟩]
  positionals := [single "system" fun text s => { s with system := text }]

/-- The grammar of `eval`. -/
def evalGrammar : Grammar EvalArguments where
  options := [helpOption]
  positionals := [
    single "expression" fun text s => { s with expression := text },
    ⟨"points", .many, fun texts s =>
      (texts.mapM floatValue).map fun points => { s with points }⟩]

/-- The names of the commands. -/
inductive CommandName where
  | root
  | linear
  | eval
  deriving DecidableEq

/-- The text of a name. -/
def CommandName.text : CommandName → String
  | root => "root"
  | linear => "linear"
  | eval => "eval"

/-- All names of commands, with their texts. -/
def CommandName.named : List (CommandName × String) :=
  [root, linear, eval].map fun c => (c, c.text)

/-- The settings of the program itself: the verbosity, and the command with its texts. -/
structure Outer where
  /-- How often more output was asked for. -/
  verbosity : Nat := 0
  /-- The command and the texts after it. -/
  command : Option (CommandName × List String) := none

/-- The grammar of the program itself. -/
def outerGrammar : Grammar Outer where
  options := [
    helpOption,
    ⟨["-v", "--verbose"], .flag fun s => { s with verbosity := s.verbosity + 1 }⟩]
  positionals := [
    ⟨"command", .rest, fun texts s =>
      (choiceValue CommandName.named (texts.headD "")).map fun c =>
        { s with command := some (c, texts.tail) }⟩]

/-- Why the program does not start: help was asked for, or an argument is refused by the program or
by one of its commands, which is named. -/
inductive Refusal where
  | help
  | refused (program : String) (cause : ArgumentError)

/-- The settings that a row of texts leads to, where refusals are those of the given program. -/
def Grammar.run (g : Grammar σ) (program : String) (settings : σ) (texts : List String) :
    Except Refusal (σ × List String) :=
  match g.parse settings texts with
  | .ok result => .ok result
  | .error .help => .error .help
  | .error (.refused cause) => .error (.refused program cause)

/-- The command that a name and the texts after it make, and the texts that nothing took. -/
def Command.parse (name : CommandName) (texts : List String) :
    Except Refusal (Command × List String) :=
  let program := programName ++ " " ++ name.text
  match name with
  | .root => (rootGrammar.run program {} texts).map fun (s, extras) => (.root s, extras)
  | .linear => (linearGrammar.run program {} texts).map fun (s, extras) => (.linear s, extras)
  | .eval => (evalGrammar.run program {} texts).map fun (s, extras) => (.eval s, extras)

/-- The invocation that a row of texts makes. -/
def Invocation.parse (texts : List String) : Except Refusal Invocation := do
  let (outer, extras) ← outerGrammar.run programName {} texts
  match outer.command with
  | none => .error (.refused programName (.missing ["command"]))
  | some (name, rest) =>
    let (command, extras') ← Command.parse name rest
    if (extras ++ extras').isEmpty then return ⟨outer.verbosity, command⟩
    else .error (.refused programName (.unrecognized (extras ++ extras')))

/-! ## The arguments as the log shows them -/

/-- What an option was given; nothing is an empty list. -/
def Given.shown (shown : α → String) : Given α → String
  | value x => shown x
  | nothing => "[]"

/-- What an option was given, if it was used. -/
def shownOption (shown : α → String) (x : Option (Given α)) : String :=
  (x.map (Given.shown shown)).getD "None"

/-- A truth value. -/
def shownBool (b : Bool) : String := if b then "True" else "False"

/-- The arguments of a command, by name. -/
def Command.shown : Command → List (String × String)
  | root s => [
      ("command", Text.quote "root"), ("expression", Text.quote s.expression),
      ("method", s.method.shown fun m => Text.quote m.name), ("a", shownOption shortestText s.a),
      ("b", shownOption shortestText s.b), ("x0", shownOption shortestText s.x0),
      ("x1", shownOption shortestText s.x1), ("phi", shownOption Text.quote s.phi),
      ("derivative", shownOption Text.quote s.derivative), ("tol", s.tol.shown shortestText),
      ("max_iter", s.maxIter.shown toString), ("steps", shownBool s.steps),
      ("func", "<function run_root at 0x0>")]
  | linear s => [
      ("command", Text.quote "linear"), ("system", Text.quote s.system),
      ("method", s.method.shown fun m => Text.quote m.name),
      ("tol", shownOption shortestText s.tol), ("max_iter", shownOption toString s.maxIter),
      ("stop", s.stop.shown fun r => Text.quote r.name), ("steps", shownBool s.steps),
      ("func", "<function run_linear at 0x0>")]
  | eval s => [
      ("command", Text.quote "eval"), ("expression", Text.quote s.expression),
      ("points", "[" ++ ", ".intercalate (s.points.map shortestText) ++ "]"),
      ("func", "<function run_eval at 0x0>")]

/-- The arguments of an invocation, by name, between braces. -/
def Invocation.shown (i : Invocation) : String :=
  let fields := ("verbose", toString i.verbosity) :: i.command.shown
  "\x7b" ++ ", ".intercalate (fields.map fun (name, value) => Text.quote name ++ ": " ++ value)
    ++ "\x7d"

end EquationSolver.CommandLine
