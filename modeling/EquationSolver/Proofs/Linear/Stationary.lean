import EquationSolver.Linear.Solve
import EquationSolver.Proofs.Iteration

/-!
# Sweeps that stop

A run of sweeps is read off from its turns: one that stops has converged or diverged, and the run
has taken as many sweeps as its number says.

## Main definitions

* `Report.summary`: what a report has in common with those of root finding

## Main results

* `outcome_of_stops`: what a turn stops with
* `SweepEnd.status_eq_success_iff`, `SweepEnd.status_eq_maxIterationsReached_iff`: the status of the
  end of a run tells how it ended
-/

namespace EquationSolver.Linear

variable {α : Type} {n : Nat}

/-- What a report has in common with those of other runs. -/
def Report.summary (report : Report α n) : Summary (SweepRecord α n) :=
  ⟨report.status, report.iterations, report.message, report.steps⟩

variable [Add α] [Sub α] [Mul α] [Zero α] [LT α] [DecidableLT α]
  [OfScientific α] [Scalar α] [SquareRoot α]

/-- A sweep that stops is the last of the run, and does not stop for want of a budget. -/
theorem outcome_of_stops {sweep : Sweep α n} {A : Dense α n n} {b : Vector α n} {rule : StopRule}
    {tol : α} {j : Nat} {x : Vector α n} {record : Option (SweepRecord α n)}
    {outcome : SweepOutcome α n}
    (h : stationaryTurn sweep A b rule tol j x = ⟨record, .stop outcome⟩) :
    outcome.ending ≠ .exhausted ∧ outcome.iterations = j := by
  have next := congrArg Turn.next h
  dsimp only [stationaryTurn] at next
  split at next
  · cases next
    exact ⟨nofun, rfl⟩
  split at next
  · cases next
    exact ⟨nofun, rfl⟩
  · cases next

namespace SweepEnd

variable {ending : SweepEnd}

theorem status_eq_success_iff : ending.status = .success ↔ ending = .converged := by
  cases ending <;> decide

theorem status_eq_maxIterationsReached_iff :
    ending.status = .maxIterationsReached ↔ ending = .exhausted := by
  cases ending <;> decide

theorem status_ne_invalidInput : ending.status ≠ .invalidInput := by
  cases ending <;> decide

end SweepEnd

/-- The equation `3 * x = 1`, which a sweep solves. -/
def thirdOfOne : LinearSystem Float 1 := ⟨.of fun _ _ => 3, .ofFn fun _ => 1⟩

end EquationSolver.Linear
