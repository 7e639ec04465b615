import EquationSolver.Root.Solve

/-!
# Root finding with exceptions

The methods are stated here once more over computations that can raise an exception: every call of a
formula may raise, and so may every division, which does when its divisor is zero. An exception ends
what is computed, up to the handler that catches it; the records made so far stay. Which exceptions
a handler lets pass is part of its definition, so that a computation without exceptions is a fact
about the methods and not about the type of their results.

## Main definitions

* `Exception`, `Raising`: what can be raised, and computations that make records and can raise
* `Raising.quotient`, `Raising.call`: the operations that raise
* `Raising.atStart`, `Raising.diverging`: the handlers of a run
* `Raising.loop`: iterations with a budget
* `Raising.solve`: the report on a request, or the exception that no handler caught
-/

namespace EquationSolver.Root

/-- What can be raised. -/
inductive Exception where
  /-- A text is no formula. -/
  | compilation (cause : CompileError)
  /-- The table of operators has no entry. -/
  | noOperator (text : String)
  /-- A formula has no value at a point. -/
  | evaluation (cause : EvalError)
  /-- A value that a method starts from does not exist. -/
  | startPoint (value : StartValue) (x : Float) (cause : EvalError)
  /-- The divisor of a division is zero. -/
  | zeroDivision
  /-- No method has the name that was asked for. -/
  | unknownMethod

/-- Computations that make records and can raise. The records outlive an exception. -/
abbrev Raising := ExceptT Exception (StateM (List (Record Float)))

namespace Raising

variable {σ : Type}

/-! ## Operations and handlers -/

/-- The quotient of two doubles. A zero of either sign divides nothing. -/
def quotient (x y : Float) : Raising Float := if y == 0 then throw .zeroDivision else pure (x / y)

/-- The value of a formula. -/
def call (f : Evaluable Float) (x : Float) : Raising Float :=
  match f x with
  | .ok y => pure y
  | .error cause => throw (.evaluation cause)

/-- Makes a record. -/
def record (r : Record Float) : Raising Unit := modify (· ++ [r])

/-- Names the value that a method could not start from. -/
def atStart (value : StartValue) (x : Float) (action : Raising Float) : Raising Float :=
  tryCatch action fun
    | .evaluation cause => throw (.startPoint value x cause)
    | other => throw other

/-- The same, if iteration `k` is the first. -/
def atFirst (k : Nat) (value : StartValue) (x : Float) (action : Raising Float) : Raising Float :=
  if k = 1 then atStart value x action else action

/-- Ends the run in iteration `k` when a formula has no value. What a method could not start from
passes. -/
def diverging (k : Nat) (action : Raising (Next σ (Outcome Float))) :
    Raising (Next σ (Outcome Float)) :=
  tryCatch action fun
    | .evaluation cause => pure (.stop (.diverged (.evaluation cause) k))
    | other => throw other

/-- The iterations from the `k`-th on, with a budget. What comes after the last has no handler. -/
def loop (turn : Nat → σ → Raising (Next σ (Outcome Float)))
    (exhausted : σ → Raising (Outcome Float)) : (budget k : Nat) → σ → Raising (Outcome Float)
  | 0, _, s => exhausted s
  | budget + 1, k, s => do
    match ← diverging k (turn k s) with
    | .stop outcome => return outcome
    | .go s' => loop turn exhausted budget (k + 1) s'

/-! ## Bracketing methods -/

section Bracketing

variable (f : Evaluable Float) (tol : Float)

/-- The midpoint of a bracket. -/
def midpoint (s : Bracket Float) : Raising Float := quotient (s.a + s.b) 2.0

/-- The bracket between two ends, or the outcome that a method ends with if there is none. -/
def bracket : Option Float → Option Float → Raising (Except (Outcome Float) (Bracket Float))
  | some a, some b => do
    if a < b then
      let fa ← atStart .leftEnd a (call f a)
      let fb ← atStart .rightEnd b (call f b)
      let s : Bracket Float := ⟨a, fa, b, fb⟩
      match s.refusal? with
      | some outcome => return .error outcome
      | none => return .ok s
    else return .error (.invalid .bracketOrder)
  | _, _ => return .error (.invalid .bracketMissing)

/-- One halving. -/
def bisectionTurn (k : Nat) (s : Bracket Float) :
    Raising (Next (Bracket Float) (Outcome Float)) := do
  let x ← midpoint s
  let fx ← call f x
  let error ← quotient s.width 2.0
  record ⟨k, x, fx, some s.a, some s.b, some error⟩
  let kept := s.halve x fx
  if IsRunaway x ∨ IsRunaway fx then return .stop (.diverged .runaway k)
  else if fx == 0 then return .stop (.success x k)
  else if kept.width ≤ tol then return .stop (.success (← midpoint kept) k)
  else return .go kept

/-- Bisection of the bracket between two ends. -/
def bisection (budget : Nat) (a b : Option Float) : Raising (Outcome Float) := do
  match ← bracket f a b with
  | .error outcome => return outcome
  | .ok s =>
    if s.fa == 0 then return .success s.a 0
    else if s.fb == 0 then return .success s.b 0
    else if s.width ≤ tol then return .success (← midpoint s) 0
    else loop (bisectionTurn f tol) (fun s => return .exhausted (← midpoint s) budget) budget 1 s

/-- The point where the chord through the ends meets the axis. -/
def chordPoint (s : Bracket Float) : Raising Float :=
  quotient (s.a * s.fb - s.b * s.fa) (s.fb - s.fa)

/-- One cut by the chord, with the point of the cut before. -/
def regulaFalsiTurn (k : Nat) : Bracket Float × Option Float →
    Raising (Next (Bracket Float × Option Float) (Outcome Float))
  | (s, before) => do
    if IsTiny (s.fb - s.fa) then return .stop (.diverged .levelChord k)
    else
      let x ← chordPoint s
      let fx ← call f x
      record ⟨k, x, fx, some s.a, some s.b, before.map fun y => modulus (x - y)⟩
      let kept := s.cut x fx
      if IsRunaway x ∨ IsRunaway fx then return .stop (.diverged .runaway k)
      else if modulus fx < tol then return .stop (.success x k)
      else if kept.width < tol then return .stop (.success (← midpoint kept) k)
      else return .go (kept, some x)

/-- False position on the bracket between two ends. -/
def regulaFalsi (budget : Nat) (a b : Option Float) : Raising (Outcome Float) := do
  match ← bracket f a b with
  | .error outcome => return outcome
  | .ok s =>
    if s.width < tol then return .success (← midpoint s) 0
    else if modulus s.fa < tol then return .success s.a 0
    else if modulus s.fb < tol then return .success s.b 0
    else
      loop (regulaFalsiTurn f tol)
        (fun (s, before) => return .exhausted (before.getD s.a) budget) budget 1 (s, none)

end Bracketing

/-! ## Open methods -/

section Secant

variable (f : Evaluable Float) (tol : Float)

/-- The point where the chord meets the axis. -/
def zero (s : Chord Float) : Raising Float := do
  let step ← quotient (s.f₁ * (s.x₁ - s.x₀)) (s.f₁ - s.f₀)
  return s.x₁ - step

/-- One step along the chord. -/
def secantTurn (k : Nat) (s : Chord Float) : Raising (Next (Chord Float) (Outcome Float)) := do
  if IsTiny (s.f₁ - s.f₀) then return .stop (.diverged .levelChord k)
  else
    let x ← zero s
    let fx ← call f x
    let move := modulus (x - s.x₁)
    record ⟨k, x, fx, none, none, some move⟩
    if IsRunaway x ∨ IsRunaway fx then return .stop (.diverged .runaway k)
    else if modulus fx < tol ∨ move < tol then return .stop (.success x k)
    else return .go ⟨s.x₁, s.f₁, x, fx⟩

/-- The chord through two guesses, or the outcome that the method ends with if there is none. -/
def chord : Option Float → Option Float → Raising (Except (Outcome Float) (Chord Float))
  | some x₀, some x₁ => do
    if IsTiny (x₀ - x₁) then return .error (.invalid .guessesEqual)
    else
      let f₀ ← atStart .firstGuess x₀ (call f x₀)
      let f₁ ← atStart .secondGuess x₁ (call f x₁)
      let s : Chord Float := ⟨x₀, f₀, x₁, f₁⟩
      if s.IsOversized then return .error (.diverged .guessesTooLarge 0) else return .ok s
  | _, _ => return .error (.invalid .guessesMissing)

/-- The secant method from two guesses. -/
def secant (budget : Nat) (x₀ x₁ : Option Float) : Raising (Outcome Float) := do
  match ← chord f x₀ x₁ with
  | .error outcome => return outcome
  | .ok s =>
    if modulus s.f₀ < tol then return .success s.x₀ 0
    else if modulus s.f₁ < tol then return .success s.x₁ 0
    else loop (secantTurn f tol) (fun s => return .exhausted s.x₁ budget) budget 1 s

end Secant

section Newton

variable (f : Evaluable Float) (derivative : Option (Evaluable Float)) (tol : Float)

/-- The slope of a function at a point, from its values a step to the right and to the left. -/
def centralDifference (x : Float) : Raising Float := do
  let h := differenceStep x
  let right ← call f (x + h)
  let left ← call f (x - h)
  quotient (right - left) (2.0 * h)

/-- The slope of a function, from a formula for it or else by the central difference. -/
def slope (x : Float) : Raising Float :=
  match derivative with
  | some derivative => call derivative x
  | none => centralDifference f x

/-- One step along the tangent at a point with its value. -/
def newtonTurn (k : Nat) : Float × Float → Raising (Next (Float × Float) (Outcome Float))
  | (x, fx) => do
    let d ← atFirst k .slope x (slope f derivative x)
    if IsLevel d then return .stop (.diverged .levelTangent k)
    else
      let y := x - (← quotient fx d)
      let fy ← call f y
      let move := modulus (y - x)
      record ⟨k, y, fy, none, none, some move⟩
      if IsRunaway y ∨ IsRunaway fy then return .stop (.diverged .runaway k)
      else if modulus fy ≤ tol ∨ move ≤ tol then return .stop (.success y k)
      else return .go (y, fy)

/-- The method of Newton from a guess. -/
def newton (budget : Nat) : Option Float → Raising (Outcome Float)
  | none => return .invalid .guessMissing
  | some x => do
    let fx ← atStart .firstGuess x (call f x)
    record ⟨0, x, fx, none, none, none⟩
    if IsRunaway x ∨ IsRunaway fx then return .diverged .runaway 0
    else if modulus fx ≤ tol then return .success x 0
    else
      loop (newtonTurn f derivative tol) (fun s => return .exhausted s.1 budget) budget 1 (x, fx)

end Newton

section FixedPoint

variable (f image : Evaluable Float) (tol : Float)

/-- One step to the image of a point. -/
def fixedPointTurn (k : Nat) (x : Float) : Raising (Next Float (Outcome Float)) := do
  let y ← atFirst k .image x (call image x)
  let fy ← call f y
  let move := modulus (y - x)
  record ⟨k, y, fy, none, none, some move⟩
  if IsRunaway y ∨ IsRunaway fy then return .stop (.diverged .runaway k)
  else if modulus fy < tol ∨ move < tol then return .stop (.success y k)
  else return .go y

/-- The fixed point method from a guess. -/
def fixedPoint (budget : Nat) : Option Float → Raising (Outcome Float)
  | none => return .invalid .guessMissing
  | some x => do
    let fx ← atStart .firstGuess x (call f x)
    record ⟨0, x, fx, none, none, none⟩
    if IsRunaway x ∨ IsRunaway fx then return .diverged .runaway 0
    else if modulus fx < tol then return .success x 0
    else loop (fixedPointTurn f image tol) (fun x => return .exhausted x budget) budget 1 x

end FixedPoint

/-! ## Requests -/

/-- The formula of a text that may be missing. An operator without an entry is no fault of the
text. -/
def compile (text : Option String) : Except Exception Formula :=
  match Formula.ofText? text with
  | .ok f => .ok f
  | .error (.unknownOperator op) => .error (.noOperator op)
  | .error cause => .error (.compilation cause)

/-- The method that a request names. -/
def methodOf (r : Request) : Except Exception Method :=
  match r.method with
  | some m => .ok m
  | none => .error .unknownMethod

/-- The report of a refusal. -/
def refused (cause : Refusal) : Report :=
  { status := .invalidInput, message := cause.message }

/-- Goes on with the formula of a text. A text that is no formula is refused. -/
def compiling (text : Option String) (refusal : CompileError → Refusal)
    (next : Formula → Except Exception Report) : Except Exception Report :=
  match compile text with
  | .ok f => next f
  | .error (.compilation cause) => .ok (refused (refusal cause))
  | .error other => .error other

/-- The report of a run. A method that could not start is reported with the records so far. -/
def running (m : Method) (withSteps : Bool) (action : Raising (Outcome Float)) :
    Except Exception Report :=
  let (result, trace) := action.run []
  let steps := if withSteps then some trace else none
  match result with
  | .ok outcome => .ok (outcome.report m steps)
  | .error (.startPoint value x cause) =>
    .ok { status := .invalidInput, steps
          message := StartFault.message m (.unevaluable value x cause) }
  | .error other => .error other

variable (r : Request) (withSteps : Bool)

/-- The report of the fixed point method for a function. -/
def solveFixedPoint (f : Formula) : Except Exception Report :=
  if isMissing r.phi then .ok (refused .phiMissing)
  else compiling r.phi .badPhi fun phi =>
    running .fixedPoint withSteps (fixedPoint f.eval phi.eval r.tolerance r.budget r.initialGuess)

/-- The report of the method of Newton for a function. -/
def solveNewton (f : Formula) : Except Exception Report :=
  let run (derivative : Option (Evaluable Float)) : Except Exception Report :=
    running .newton withSteps (newton f.eval derivative r.tolerance r.budget r.initialGuess)
  if isMissing r.derivative then run none
  else compiling r.derivative .badDerivative fun d => run (some d.eval)

/-- The report of a method for a function. -/
def solveWith (f : Formula) : Method → Except Exception Report
  | .bisection =>
    running .bisection withSteps (bisection f.eval r.tolerance r.budget r.a r.b)
  | .regulaFalsi =>
    running .regulaFalsi withSteps (regulaFalsi f.eval r.tolerance r.budget r.a r.b)
  | .secant =>
    running .secant withSteps
      (secant f.eval r.tolerance r.budget (r.initialGuess <|> r.a) (r.secondGuess <|> r.b))
  | .newton => solveNewton r withSteps f
  | .fixedPoint => solveFixedPoint r withSteps f

/-- The report on a request, or the exception that no handler caught. -/
def solve : Except Exception Report :=
  match r.refusal? with
  | some cause => .ok (refused cause)
  | none =>
    match methodOf r with
    | .error .unknownMethod =>
      .ok { status := .notImplemented, message := "Unrecognized root-finding method." }
    | .error other => .error other
    | .ok m => compiling r.function .badFunction fun f => solveWith r withSteps f m

end Raising

end EquationSolver.Root
