/-!
# Log lines

A run can be followed in log lines. They are read off its result afterwards, so that solving itself
writes nothing.

## Main definitions

* `LogLine`: a line with its level and the part of the program that it is about
* `LogLine.render`: its text
-/

namespace EquationSolver

/-- How much a line matters. -/
inductive LogLevel where
  | debug
  | warning
  deriving DecidableEq

/-- The part of the program that a line is about. -/
inductive LogSource where
  | commandLine
  | formula
  | rootFinding
  | elimination
  | factorization
  | stationary
  | linear
  deriving DecidableEq

/-- The name of a level. -/
def LogLevel.name : LogLevel → String
  | debug => "DEBUG"
  | warning => "WARNING"

/-- The name of a part of the program. -/
def LogSource.name : LogSource → String
  | commandLine => "numsolve.cli"
  | formula => "numsolve.expression"
  | rootFinding => "numsolve.rootfinding"
  | elimination => "numsolve.elimination"
  | factorization => "numsolve.decomposition"
  | stationary => "numsolve.iterative"
  | linear => "numsolve.linear"

/-- A log line. -/
structure LogLine where
  /-- How much the line matters. -/
  level : LogLevel
  /-- What the line is about. -/
  source : LogSource
  /-- What the line says. -/
  text : String

/-- The text of a line with its level and its source. -/
def LogLine.render (l : LogLine) : String := l.level.name ++ " " ++ l.source.name ++ ": " ++ l.text

/-- Warnings are always shown, the other lines from a verbosity of two on. -/
def LogLine.isShown (verbosity : Nat) (l : LogLine) : Bool :=
  l.level == .warning || 1 < verbosity

/-- The line about the end of a solver. Time is not measured. -/
def LogLine.ended (source : LogSource) (method status : String) (iterations : Nat) : LogLine :=
  ⟨.debug, source,
    method ++ ": status=" ++ status ++ " iterations=" ++ toString iterations ++ " elapsed=0.000ms"⟩

end EquationSolver
