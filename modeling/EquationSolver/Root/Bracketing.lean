import EquationSolver.Root.Outcome
import EquationSolver.Scalar

/-!
# Bracketing methods

A bracket is an interval with the values of a function at its ends, which differ in sign. Bisection
halves it, false position cuts it where the chord through its ends meets the axis. Both keep the
part whose ends still differ in sign.

## Main definitions

* `Root.Bracket`, `Root.bracket?`: a bracket, and the test that two ends make one
* `Root.bisectionTurn`, `Root.bisection`: one halving, and the method
* `Root.regulaFalsiTurn`, `Root.regulaFalsi`: one cut by the chord, and the method
-/

namespace EquationSolver.Root

/-- An interval with the values of a function at its ends. -/
structure Bracket (α : Type) where
  /-- The left end. -/
  a : α
  /-- The value at the left end. -/
  fa : α
  /-- The right end. -/
  b : α
  /-- The value at the right end. -/
  fb : α

variable {α : Type} [Add α] [Sub α] [Mul α] [Div α] [Zero α] [BEq α] [LT α] [LE α]
  [DecidableLT α] [DecidableLE α] [OfScientific α] [Scalar α]

namespace Bracket

/-- The distance of the ends. -/
def width (s : Bracket α) : α := s.b - s.a

/-- The midpoint of the ends. -/
def midpoint (s : Bracket α) : α := (s.a + s.b) / (2.0 : α)

/-- The bracket with another left end. -/
def setLeft (s : Bracket α) (x fx : α) : Bracket α := { s with a := x, fa := fx }

/-- The bracket with another right end. -/
def setRight (s : Bracket α) (x fx : α) : Bracket α := { s with b := x, fb := fx }

/-- Whether an end or its value counts as diverged. -/
def IsOversized (s : Bracket α) : Prop :=
  IsRunaway s.a ∨ IsRunaway s.fa ∨ IsRunaway s.b ∨ IsRunaway s.fb

instance (s : Bracket α) : Decidable s.IsOversized :=
  inferInstanceAs (Decidable (_ ∨ _ ∨ _ ∨ _))

/-- The outcome that a bracket leads to at once, if its values do not fit. -/
def refusal? (s : Bracket α) : Option (Outcome α) :=
  if Scalar.isFinite s.fa = false ∨ Scalar.isFinite s.fb = false then
    some (.invalid .endpointsNotFinite)
  else if s.IsOversized then some (.diverged .endpointsTooLarge 0)
  else if 0 < s.fa * s.fb then some (.invalid .sameSign)
  else none

omit [Add α] [Sub α] [Div α] [BEq α] [LE α] [DecidableLE α] in
theorem outcome_of_refusal? {s : Bracket α} {outcome : Outcome α}
    (h : s.refusal? = some outcome) :
    outcome = .invalid .endpointsNotFinite ∨ outcome = .diverged .endpointsTooLarge 0 ∨
      outcome = .invalid .sameSign := by
  unfold refusal? at h
  split at h
  · exact .inl (Option.some.inj h).symm
  · split at h
    · exact .inr (.inl (Option.some.inj h).symm)
    · split at h
      · exact .inr (.inr (Option.some.inj h).symm)
      · cases h

end Bracket

/-- The bracket between two ends, or the outcome that a method ends with if there is none. -/
def bracket? (f : Evaluable α) : Option α → Option α → Except (Outcome α) (Bracket α)
  | some a, some b => do
    if a < b then
      let s : Bracket α := ⟨a, ← startValue .leftEnd f a, b, ← startValue .rightEnd f b⟩
      match s.refusal? with
      | some outcome => .error outcome
      | none => .ok s
    else .error (.invalid .bracketOrder)
  | _, _ => .error (.invalid .bracketMissing)

section Bisection

variable (f : Evaluable α) (tol : α)

/-- The half of a bracket that keeps the sign change, cut at `x`. -/
def Bracket.halve (s : Bracket α) (x fx : α) : Bracket α :=
  if s.fa * fx < 0 then s.setRight x fx else s.setLeft x fx

/-- One halving: it stops at a zero, or when the kept half is no wider than the tolerance. -/
def bisectionTurn (k : Nat) (s : Bracket α) : Turn (Bracket α) (Record α) (Outcome α) :=
  let x := s.midpoint
  match f x with
  | .error cause => ⟨none, .stop (.diverged (.evaluation cause) k)⟩
  | .ok fx =>
    let record : Record α := ⟨k, x, fx, some s.a, some s.b, some (s.width / (2.0 : α))⟩
    let kept := s.halve x fx
    ⟨some record,
      if IsRunaway x ∨ IsRunaway fx then .stop (.diverged .runaway k)
      else if fx == 0 then .stop (.success x k)
      else if kept.width ≤ tol then .stop (.success kept.midpoint k)
      else .go kept⟩

/-- Bisection of the bracket between two ends. -/
def bisection (budget : Nat) (a b : Option α) : History α :=
  match bracket? f a b with
  | .error outcome => .ended outcome
  | .ok s =>
    if s.fa == 0 then .ended (.success s.a 0)
    else if s.fb == 0 then .ended (.success s.b 0)
    else if s.width ≤ tol then .ended (.success s.midpoint 0)
    else iterate (bisectionTurn f tol) (fun s => .exhausted s.midpoint budget) budget 1 s

end Bisection

section RegulaFalsi

variable (f : Evaluable α) (tol : α)

/-- The part of a bracket that keeps the sign change, cut at `x`. -/
def Bracket.cut (s : Bracket α) (x fx : α) : Bracket α :=
  if 0 < s.fa * fx then s.setLeft x fx else s.setRight x fx

/-- The point where the chord through the ends meets the axis. -/
def Bracket.chordPoint (s : Bracket α) : α := (s.a * s.fb - s.b * s.fa) / (s.fb - s.fa)

/-- One cut by the chord, with the point of the cut before: it stops where the function is below the
tolerance, or when the kept part is narrower than it. -/
def regulaFalsiTurn (k : Nat) : Bracket α × Option α →
    Turn (Bracket α × Option α) (Record α) (Outcome α)
  | (s, before) =>
    if IsTiny (s.fb - s.fa) then ⟨none, .stop (.diverged .levelChord k)⟩
    else
      let x := s.chordPoint
      match f x with
      | .error cause => ⟨none, .stop (.diverged (.evaluation cause) k)⟩
      | .ok fx =>
        let record : Record α :=
          ⟨k, x, fx, some s.a, some s.b, before.map fun y => modulus (x - y)⟩
        let kept := s.cut x fx
        ⟨some record,
          if IsRunaway x ∨ IsRunaway fx then .stop (.diverged .runaway k)
          else if modulus fx < tol then .stop (.success x k)
          else if kept.width < tol then .stop (.success kept.midpoint k)
          else .go (kept, some x)⟩

/-- False position on the bracket between two ends. -/
def regulaFalsi (budget : Nat) (a b : Option α) : History α :=
  match bracket? f a b with
  | .error outcome => .ended outcome
  | .ok s =>
    if s.width < tol then .ended (.success s.midpoint 0)
    else if modulus s.fa < tol then .ended (.success s.a 0)
    else if modulus s.fb < tol then .ended (.success s.b 0)
    else
      iterate (regulaFalsiTurn f tol) (fun (s, before) => .exhausted (before.getD s.a) budget)
        budget 1 (s, none)

end RegulaFalsi

end EquationSolver.Root
