import EquationSolver.Formula.Error
import EquationSolver.Iteration

/-!
# Outcomes of root finding

A run of a method ends with a root, by diverging, with its budget spent, or before it starts because
its parameters do not fit. What went wrong is a cause; messages are written from the method and the
cause.

## Main definitions

* `Root.Method`: the five methods
* `Root.Record`: what is recorded of one iteration
* `Root.Outcome`: how a run ends
-/

namespace EquationSolver.Root

/-- A function that may fail to have a value at a point. -/
abbrev Evaluable (α : Type) := α → Except EvalError α

/-- The methods. -/
inductive Method where
  | bisection
  | fixedPoint
  | newton
  | regulaFalsi
  | secant
  deriving DecidableEq

namespace Method

/-- All methods, in the order of their names. -/
def all : List Method := [bisection, fixedPoint, newton, regulaFalsi, secant]

/-- The name by which a method is requested. -/
def name : Method → String
  | bisection => "bisection"
  | fixedPoint => "fixed_point"
  | newton => "newton"
  | regulaFalsi => "regula_falsi"
  | secant => "secant"

/-- The method with the given name. -/
def ofName? (s : String) : Option Method := all.find? fun m => m.name = s

theorem ofName?_name (m : Method) : ofName? m.name = some m := by cases m <;> decide

/-- The name of a method in front of a cause. -/
def title : Method → String
  | bisection => "Bisection"
  | fixedPoint => "Fixed Point"
  | newton => "Newton"
  | regulaFalsi => "Regula Falsi"
  | secant => "Secant"

/-- The name of a method inside a sentence. -/
def phrase : Method → String
  | bisection => "the Bisection method"
  | fixedPoint => "the Fixed Point method"
  | newton => "Newton's method"
  | regulaFalsi => "Regula Falsi"
  | secant => "the Secant method"

end Method

/-- What is recorded of one iteration. -/
structure Record (α : Type) where
  /-- The number of the iteration. -/
  iteration : Nat
  /-- The point that was reached. -/
  x : α
  /-- The value of the function there. -/
  fx : α
  /-- The left end of the bracket, for a bracketing method. -/
  a : Option α := none
  /-- The right end of the bracket, for a bracketing method. -/
  b : Option α := none
  /-- The method's estimate of the error, if it has one. -/
  error : Option α := none

/-- Why a run diverged. -/
inductive Divergence where
  /-- The ends of the bracket or their values are too large. -/
  | endpointsTooLarge
  /-- The two guesses or their values are too large or not finite. -/
  | guessesTooLarge
  /-- The point or its value is too large or not finite. -/
  | runaway
  /-- The chord through the last two points is level. -/
  | levelChord
  /-- The tangent at the last point is level. -/
  | levelTangent
  /-- A function has no value where it is needed. -/
  | evaluation (cause : EvalError)

/-- The values that a method needs before its first iteration. -/
inductive StartValue where
  /-- The function at the left end of the bracket. -/
  | leftEnd
  /-- The function at the right end of the bracket. -/
  | rightEnd
  /-- The function at the first guess. -/
  | firstGuess
  /-- The function at the second guess. -/
  | secondGuess
  /-- The slope at the first guess. -/
  | slope
  /-- The image of the first guess. -/
  | image

/-- How a value is called in messages. -/
def StartValue.label : StartValue → String
  | leftEnd => "f(a)"
  | rightEnd => "f(b)"
  | firstGuess => "f(x0)"
  | secondGuess => "f(x1)"
  | slope => "f'(x0)"
  | image => "phi(x0)"

/-- Why a method cannot start. -/
inductive StartFault (α : Type) where
  /-- An end of the bracket is missing. -/
  | bracketMissing
  /-- The left end is not below the right end. -/
  | bracketOrder
  /-- A value at an end of the bracket is not finite. -/
  | endpointsNotFinite
  /-- The values at the ends have the same sign. -/
  | sameSign
  /-- One of two guesses is missing. -/
  | guessesMissing
  /-- The two guesses are the same. -/
  | guessesEqual
  /-- The guess is missing. -/
  | guessMissing
  /-- A value that the method starts from does not exist. -/
  | unevaluable (value : StartValue) (x : α) (cause : EvalError)

/-- How a run ends. -/
inductive Outcome (α : Type) where
  /-- With a root, found in the given iteration. -/
  | success (root : α) (iterations : Nat)
  /-- By diverging in the given iteration. -/
  | diverged (cause : Divergence) (iterations : Nat)
  /-- With the budget spent, at the last estimate. -/
  | exhausted (last : α) (iterations : Nat)
  /-- Because it cannot start. -/
  | invalid (fault : StartFault α)

/-- The run of a method. -/
abbrev History (α : Type) := Run (Record α) (Outcome α)

variable {α : Type}

/-- The value of a function that a method starts from. -/
def startValue (value : StartValue) (f : Evaluable α) (x : α) : Except (Outcome α) α :=
  match f x with
  | .ok fx => .ok fx
  | .error cause => .error (.invalid (.unevaluable value x cause))

end EquationSolver.Root
