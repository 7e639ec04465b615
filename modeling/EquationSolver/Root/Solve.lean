import EquationSolver.Formula.Compile
import EquationSolver.Root.Bracketing
import EquationSolver.Root.Open
import EquationSolver.Decimal.Format
import EquationSolver.Status

/-!
# Finding a root of a formula

A request names a method and gives formulas and numbers for it. Requests with unusable formulas,
tolerance or budget are refused before a method runs; every other request ends with the run of its
method. The report of a solution is what its caller sees.

## Main definitions

* `Root.Request`: what is asked for
* `Root.solve`: the solution of a request, with the formulas that were compiled for it
* `Root.Solution.report`: the report of a solution, with or without its trace
-/

namespace EquationSolver.Root

/-- What is asked for. -/
structure Request where
  /-- The text of the function whose root is looked for. -/
  function : Option String
  /-- The method, if the request names one that exists. -/
  method : Option Method
  /-- The tolerance of the stopping test. -/
  tolerance : Float
  /-- The most iterations that may be taken. -/
  maxIterations : Int
  /-- The text of the function whose fixed point is looked for. -/
  phi : Option String := none
  /-- The text of the derivative. -/
  derivative : Option String := none
  /-- The left end of the bracket. -/
  a : Option Float := none
  /-- The right end of the bracket. -/
  b : Option Float := none
  /-- The first guess. -/
  initialGuess : Option Float := none
  /-- The second guess. -/
  secondGuess : Option Float := none

/-- Why a request is refused before a method runs. -/
inductive Refusal where
  /-- The function is missing or blank. -/
  | functionMissing
  /-- The tolerance is not above zero. -/
  | tolerance
  /-- The budget is not above zero. -/
  | budget
  /-- The function does not compile. -/
  | badFunction (cause : CompileError)
  /-- The fixed point method has no second function. -/
  | phiMissing
  /-- The second function does not compile. -/
  | badPhi (cause : CompileError)
  /-- The derivative does not compile. -/
  | badDerivative (cause : CompileError)

/-- What a request comes to. -/
inductive Verdict where
  /-- It is refused. -/
  | refused (cause : Refusal)
  /-- It names no method. -/
  | unknownMethod
  /-- Its method ran. -/
  | ran (method : Method) (history : History Float)

/-- The solution of a request. -/
structure Solution where
  /-- The formulas that were compiled, in order. -/
  formulas : List Formula
  /-- What the request came to. -/
  verdict : Verdict

/-- Whether a text is missing or blank. -/
def isMissing : Option String → Bool
  | none => true
  | some s => Text.isBlankText s

namespace Request

/-- Why a request is refused before its formulas are looked at. -/
def refusal? (r : Request) : Option Refusal :=
  if isMissing r.function then some .functionMissing
  else if ¬ 0 < r.tolerance then some .tolerance
  else if r.maxIterations ≤ 0 then some .budget
  else none

/-- The budget of a request. -/
def budget (r : Request) : Nat := r.maxIterations.toNat

/-- The run of the fixed point method for a function. -/
def solveFixedPoint (r : Request) (f : Formula) : Solution :=
  if isMissing r.phi then ⟨[f], .refused .phiMissing⟩
  else match Formula.ofText? r.phi with
    | .error cause => ⟨[f], .refused (.badPhi cause)⟩
    | .ok phi =>
      ⟨[f, phi], .ran .fixedPoint (fixedPoint f.eval phi.eval r.tolerance r.budget r.initialGuess)⟩

/-- The run of the method of Newton for a function. -/
def solveNewton (r : Request) (f : Formula) : Solution :=
  if isMissing r.derivative then
    ⟨[f], .ran .newton (newton f.eval (slopeOf f.eval none) r.tolerance r.budget r.initialGuess)⟩
  else match Formula.ofText? r.derivative with
    | .error cause => ⟨[f], .refused (.badDerivative cause)⟩
    | .ok d =>
      ⟨[f, d],
        .ran .newton (newton f.eval (slopeOf f.eval d.eval) r.tolerance r.budget r.initialGuess)⟩

/-- The run of a method for a function. -/
def solveWith (r : Request) (f : Formula) : Method → Solution
  | .bisection => ⟨[f], .ran .bisection (bisection f.eval r.tolerance r.budget r.a r.b)⟩
  | .regulaFalsi => ⟨[f], .ran .regulaFalsi (regulaFalsi f.eval r.tolerance r.budget r.a r.b)⟩
  | .secant =>
    ⟨[f], .ran .secant
      (secant f.eval r.tolerance r.budget (r.initialGuess <|> r.a) (r.secondGuess <|> r.b))⟩
  | .newton => r.solveNewton f
  | .fixedPoint => r.solveFixedPoint f

end Request

/-- The solution of a request. -/
def solve (r : Request) : Solution :=
  match r.refusal? with
  | some cause => ⟨[], .refused cause⟩
  | none =>
    match r.method with
    | none => ⟨[], .unknownMethod⟩
    | some method =>
      match Formula.ofText? r.function with
      | .error cause => ⟨[], .refused (.badFunction cause)⟩
      | .ok f => r.solveWith f method

/-! ## Reports -/

/-- The message of a refusal. -/
def Refusal.message : Refusal → String
  | functionMissing => "The function expression cannot be empty."
  | tolerance => "Tolerance must be greater than zero."
  | budget => "Maximum number of iterations must be greater than zero."
  | badFunction cause => "Invalid expression for f(x): " ++ cause.message
  | phiMissing => "phi(x) is required for the Fixed Point method."
  | badPhi cause => "Invalid expression for phi(x): " ++ cause.message
  | badDerivative cause => "Invalid expression for f'(x): " ++ cause.message

/-- The message of a fault. -/
def StartFault.message (m : Method) : StartFault Float → String
  | bracketMissing => "Parameters 'a' and 'b' are required for " ++ m.title ++ "."
  | bracketOrder => "'a' must be less than 'b' for " ++ m.title ++ "."
  | endpointsNotFinite => "f(x) is not finite at the interval endpoints for " ++ m.title ++ "."
  | sameSign => "f(a) and f(b) must have opposite signs for " ++ m.title ++ "."
  | guessesMissing => "Two initial guesses are required for " ++ m.phrase ++ "."
  | guessesEqual => "The initial guesses for " ++ m.phrase ++ " must be distinct."
  | guessMissing => "An initial guess is required for " ++ m.phrase ++ "."
  | unevaluable value x cause =>
    value.label ++ " cannot be evaluated at x = " ++ generalText x ++ ": " ++ cause.message

/-- The message of a cause of divergence. -/
def Divergence.message (m : Method) : Divergence → String
  | endpointsTooLarge => "f(x) is too large at the interval endpoints for " ++ m.title ++ "."
  | guessesTooLarge => "f(x) is not finite or too large at the initial guesses."
  | runaway => "Iterations diverged in " ++ m.phrase ++ "."
  | levelChord => "Denominator close to zero in " ++ m.phrase ++ "."
  | levelTangent => "Derivative close to zero in " ++ m.phrase ++ "."
  | evaluation cause => m.title ++ ": " ++ cause.message

/-- What the caller of a solver sees. -/
structure Report where
  /-- How the request ended. -/
  status : Status
  /-- The root, on success. -/
  root : Option Float := none
  /-- The iterations that were taken. -/
  iterations : Nat := 0
  /-- What went wrong; empty on success. -/
  message : String := ""
  /-- The trace, if it was asked for and a method started. -/
  steps : Option (List (Record Float)) := none
  /-- The last estimate, if the budget was spent. -/
  lastEstimate : Option Float := none

/-- The report of an outcome with a trace. A method that could not start for its parameters has
none; one that failed to evaluate its first values has. -/
def Outcome.report (m : Method) (steps : Option (List (Record Float))) : Outcome Float → Report
  | success root k => { status := .success, root, iterations := k, steps }
  | diverged cause k =>
    { status := .divergence, iterations := k, message := cause.message m, steps }
  | exhausted last k =>
    { status := .maxIterationsReached, iterations := k, steps, lastEstimate := last
      message := "Maximum number of iterations reached without convergence " ++
        "within the requested tolerance." }
  | invalid (.unevaluable value x cause) =>
    { status := .invalidInput, steps
      message := StartFault.message m (.unevaluable value x cause) }
  | invalid fault => { status := .invalidInput, message := fault.message m }

/-- The report of a solution, with its trace if that is asked for. -/
def Solution.report (s : Solution) (withSteps : Bool) : Report :=
  match s.verdict with
  | .refused cause => { status := .invalidInput, message := cause.message }
  | .unknownMethod =>
    { status := .notImplemented, message := "Unrecognized root-finding method." }
  | .ran m history => history.outcome.report m (if withSteps then some history.trace else none)

end EquationSolver.Root
