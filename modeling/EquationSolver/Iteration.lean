/-!
# Iterations with a budget

A method is given by what it does in one iteration: it may reach a point, which is recorded, and it
either goes on from a new state or stops with an outcome. A run takes such turns until one stops or
the budget is spent, and keeps the records in order.

## Main definitions

* `Turn`: what one iteration comes to
* `Run`: the records of a run and its outcome
* `iterate`: the run of a method
* `Next.Keeps`: a state that is gone on from has a property, or an outcome has

## Main results

* `outcome_iterate`: what every turn keeps, a run ends with
-/

namespace EquationSolver

variable {State Record Outcome : Type}

/-- How a run goes on after an iteration. -/
inductive Next (State Outcome : Type) where
  /-- With a further iteration. -/
  | go (state : State)
  /-- Not at all. -/
  | stop (outcome : Outcome)

/-- The state that is gone on from has a property, or the outcome has another. -/
def Next.Keeps (P : State → Prop) (Q : Outcome → Prop) : Next State Outcome → Prop
  | .go s => P s
  | .stop outcome => Q outcome

/-- What one iteration comes to. -/
structure Turn (State Record Outcome : Type) where
  /-- The record of the point that was reached, if one was. -/
  record? : Option Record
  /-- How the run goes on. -/
  next : Next State Outcome

/-- The records of a run, in order, and its outcome. -/
structure Run (Record Outcome : Type) where
  /-- The records of the points that were reached. -/
  trace : List Record
  /-- How the run ended. -/
  outcome : Outcome

namespace Run

/-- A run that ends before its first iteration. -/
def ended (outcome : Outcome) : Run Record Outcome := ⟨[], outcome⟩

/-- The run with records in front of its own. -/
def after (records : List Record) (run : Run Record Outcome) : Run Record Outcome :=
  ⟨records ++ run.trace, run.outcome⟩

end Run

/-- The run that starts with iteration `k` and has the given number of iterations left. -/
def iterate (turn : Nat → State → Turn State Record Outcome) (exhausted : State → Outcome) :
    (budget k : Nat) → State → Run Record Outcome
  | 0, _, s => .ended (exhausted s)
  | budget + 1, k, s =>
    match turn k s with
    | ⟨r, .stop outcome⟩ => ⟨r.toList, outcome⟩
    | ⟨r, .go s'⟩ => (iterate turn exhausted budget (k + 1) s').after r.toList

section

variable (turn : Nat → State → Turn State Record Outcome) (exhausted : State → Outcome)

@[simp] theorem iterate_zero (k : Nat) (s : State) :
    iterate turn exhausted 0 k s = .ended (exhausted s) := rfl

theorem iterate_stop {k : Nat} {s : State} {r : Option Record} {outcome : Outcome}
    (h : turn k s = ⟨r, .stop outcome⟩) (budget : Nat) :
    iterate turn exhausted (budget + 1) k s = ⟨r.toList, outcome⟩ := by
  simp only [iterate, h]

theorem iterate_go {k : Nat} {s s' : State} {r : Option Record} (h : turn k s = ⟨r, .go s'⟩)
    (budget : Nat) :
    iterate turn exhausted (budget + 1) k s =
      (iterate turn exhausted budget (k + 1) s').after r.toList := by
  simp only [iterate, h]

/-- What every turn up to the last keeps, a run ends with. -/
theorem outcome_iterate {P : State → Prop} {Q : Outcome → Prop} {last : Nat}
    (step : ∀ k s, k ≤ last → P s → (turn k s).next.Keeps P Q)
    (spent : ∀ s, P s → Q (exhausted s)) :
    ∀ (budget k : Nat) (s : State), k + budget = last + 1 → P s →
      Q (iterate turn exhausted budget k s).outcome := by
  intro budget
  induction budget with
  | zero =>
    intro k s _ hs
    exact spent s hs
  | succ budget ih =>
    intro k s total hs
    have kept := step k s (by omega) hs
    rcases h : turn k s with ⟨r, s' | outcome⟩
    · rw [h] at kept
      rw [iterate_go turn exhausted h]
      exact ih (k + 1) s' (by omega) kept
    · rw [h] at kept
      rw [iterate_stop turn exhausted h]
      exact kept

end

end EquationSolver
