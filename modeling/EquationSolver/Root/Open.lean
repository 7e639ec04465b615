import EquationSolver.Root.Outcome
import EquationSolver.Scalar

/-!
# Open methods

These methods follow a sequence of points without a bracket around them. The secant method takes the
zero of the chord through the last two points, the method of Newton that of the tangent, and the
fixed point method the image under a second function.

## Main definitions

* `Root.secantTurn`, `Root.secant`
* `Root.centralDifference`, `Root.newtonTurn`, `Root.newton`
* `Root.fixedPointTurn`, `Root.fixedPoint`
-/

namespace EquationSolver.Root

variable {α : Type} [Add α] [Sub α] [Mul α] [Div α] [LT α] [LE α] [DecidableLT α] [DecidableLE α]
  [OfScientific α] [Scalar α]

section Secant

variable (f : Evaluable α) (tol : α)

/-- Two points with their values. -/
structure Chord (α : Type) where
  /-- The older point. -/
  x₀ : α
  /-- The value at the older point. -/
  f₀ : α
  /-- The newer point. -/
  x₁ : α
  /-- The value at the newer point. -/
  f₁ : α

/-- Whether a point or its value counts as diverged. -/
def Chord.IsOversized (s : Chord α) : Prop :=
  IsRunaway s.x₀ ∨ IsRunaway s.f₀ ∨ IsRunaway s.x₁ ∨ IsRunaway s.f₁

instance (s : Chord α) : Decidable s.IsOversized :=
  inferInstanceAs (Decidable (_ ∨ _ ∨ _ ∨ _))

/-- The point where the chord meets the axis. -/
def Chord.zero (s : Chord α) : α := s.x₁ - s.f₁ * (s.x₁ - s.x₀) / (s.f₁ - s.f₀)

/-- One step along the chord: it stops where the function or the step is below the tolerance. -/
def secantTurn (k : Nat) (s : Chord α) : Turn (Chord α) (Record α) (Outcome α) :=
  if IsTiny (s.f₁ - s.f₀) then ⟨none, .stop (.diverged .levelChord k)⟩
  else
    let x := s.zero
    match f x with
    | .error cause => ⟨none, .stop (.diverged (.evaluation cause) k)⟩
    | .ok fx =>
      let move := modulus (x - s.x₁)
      ⟨some ⟨k, x, fx, none, none, some move⟩,
        if IsRunaway x ∨ IsRunaway fx then .stop (.diverged .runaway k)
        else if modulus fx < tol ∨ move < tol then .stop (.success x k)
        else .go ⟨s.x₁, s.f₁, x, fx⟩⟩

/-- The chord through two guesses, or the outcome that the method ends with if there is none. -/
def chord? : Option α → Option α → Except (Outcome α) (Chord α)
  | some x₀, some x₁ => do
    if IsTiny (x₀ - x₁) then .error (.invalid .guessesEqual)
    else
      let f₀ ← startValue .firstGuess f x₀
      let f₁ ← startValue .secondGuess f x₁
      let s : Chord α := ⟨x₀, f₀, x₁, f₁⟩
      if s.IsOversized then .error (.diverged .guessesTooLarge 0) else .ok s
  | _, _ => .error (.invalid .guessesMissing)

/-- The secant method from two guesses. -/
def secant (budget : Nat) (x₀ x₁ : Option α) : History α :=
  match chord? f x₀ x₁ with
  | .error outcome => .ended outcome
  | .ok s =>
    if modulus s.f₀ < tol then .ended (.success s.x₀ 0)
    else if modulus s.f₁ < tol then .ended (.success s.x₁ 0)
    else iterate (secantTurn f tol) (fun s => .exhausted s.x₁ budget) budget 1 s

end Secant

section Newton

variable (f slope : Evaluable α) (tol : α)

/-- The step of the central difference at a point. -/
def differenceStep (x : α) : α :=
  (1e-6 : α) * (if (1.0 : α) < modulus x then modulus x else (1.0 : α))

/-- The slope of a function at a point, from its values a step to the right and to the left. -/
def centralDifference (x : α) : Except EvalError α := do
  let h := differenceStep x
  return ((← f (x + h)) - (← f (x - h))) / ((2.0 : α) * h)

/-- The slope of a function, from a formula for it or else by the central difference. -/
def slopeOf : Option (Evaluable α) → Evaluable α
  | some derivative => derivative
  | none => centralDifference f

/-- A slope that is not finite or counts as zero. -/
def IsLevel (d : α) : Prop := Scalar.isFinite d = false ∨ IsTiny d

instance (d : α) : Decidable (IsLevel d) := inferInstanceAs (Decidable (_ ∨ _))

/-- How a run ends when a value that an iteration starts from does not exist: in the first iteration
the method could not start. -/
def failedStart (k : Nat) (value : StartValue) (x : α) (cause : EvalError) : Outcome α :=
  if k = 1 then .invalid (.unevaluable value x cause) else .diverged (.evaluation cause) k

/-- One step along the tangent at a point with its value: it stops where the function or the step is
within the tolerance. -/
def newtonTurn (k : Nat) : α × α → Turn (α × α) (Record α) (Outcome α)
  | (x, fx) =>
    match slope x with
    | .error cause => ⟨none, .stop (failedStart k .slope x cause)⟩
    | .ok d =>
      if IsLevel d then ⟨none, .stop (.diverged .levelTangent k)⟩
      else
        let y := x - fx / d
        match f y with
        | .error cause => ⟨none, .stop (.diverged (.evaluation cause) k)⟩
        | .ok fy =>
          let move := modulus (y - x)
          ⟨some ⟨k, y, fy, none, none, some move⟩,
            if IsRunaway y ∨ IsRunaway fy then .stop (.diverged .runaway k)
            else if modulus fy ≤ tol ∨ move ≤ tol then .stop (.success y k)
            else .go (y, fy)⟩

/-- The method of Newton from a guess. The guess is recorded as iteration zero. -/
def newton (budget : Nat) : Option α → History α
  | none => .ended (.invalid .guessMissing)
  | some x =>
    match startValue .firstGuess f x with
    | .error outcome => .ended outcome
    | .ok fx =>
      .after [⟨0, x, fx, none, none, none⟩] <|
        if IsRunaway x ∨ IsRunaway fx then .ended (.diverged .runaway 0)
        else if modulus fx ≤ tol then .ended (.success x 0)
        else iterate (newtonTurn f slope tol) (fun s => .exhausted s.1 budget) budget 1 (x, fx)

end Newton

section FixedPoint

variable (f image : Evaluable α) (tol : α)

/-- One step to the image of a point: it stops where the function or the step is below the
tolerance. -/
def fixedPointTurn (k : Nat) (x : α) : Turn α (Record α) (Outcome α) :=
  match image x with
  | .error cause => ⟨none, .stop (failedStart k .image x cause)⟩
  | .ok y =>
    match f y with
    | .error cause => ⟨none, .stop (.diverged (.evaluation cause) k)⟩
    | .ok fy =>
      let move := modulus (y - x)
      ⟨some ⟨k, y, fy, none, none, some move⟩,
        if IsRunaway y ∨ IsRunaway fy then .stop (.diverged .runaway k)
        else if modulus fy < tol ∨ move < tol then .stop (.success y k)
        else .go y⟩

/-- The fixed point method from a guess. The guess is recorded as iteration zero. -/
def fixedPoint (budget : Nat) : Option α → History α
  | none => .ended (.invalid .guessMissing)
  | some x =>
    match startValue .firstGuess f x with
    | .error outcome => .ended outcome
    | .ok fx =>
      .after [⟨0, x, fx, none, none, none⟩] <|
        if IsRunaway x ∨ IsRunaway fx then .ended (.diverged .runaway 0)
        else if modulus fx < tol then .ended (.success x 0)
        else iterate (fixedPointTurn f image tol) (fun x => .exhausted x budget) budget 1 x

end FixedPoint

end EquationSolver.Root
