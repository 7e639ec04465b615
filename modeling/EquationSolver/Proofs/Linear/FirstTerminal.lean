import EquationSolver.Proofs.Linear.Stationary
import Mathlib.Logic.Function.Iterate
import Mathlib.Data.Nat.Find

/-!
# The first terminal iterate of a sweep

The iterates of a sweep are a sequence that knows of no test and no budget: the zero vector, and the
sweep of the vector before. Each of them is terminal or not, by its own metric and its own entries.
A stationary method reports the first terminal iterate of the sequence if its budget reaches that
far, and the last iterate of its budget if not. The state of the run is no more than the place in
the sequence, so the vector that the next sweep starts from and the one that its change is measured
from are both the iterate before.

No law of arithmetic is used, so all of this holds of doubles as it does of the reals. Where a
comparison fails for both orders, as it does for the value that compares with nothing, an iterate is
terminal by its first test or not at all.

## Main definitions

* `sweepIterate`, `metricAt`, `recordAt`: the sequence, its metrics, and what is recorded of it
* `DivergesAt`, `TerminalAt`, `IsFirstTerminal`: the tests of an iterate
* `Unusable`: the requests that no stationary method takes
* `Report.Shows`: a report gives one iterate of the sequence and the records up to it

## Main results

* `stationaryTurn_sweepIterate`, `passes_sweepIterate`: one turn of a run, and the turns up to the
  first terminal iterate
* `stationary_cases`: a run ends with the first terminal iterate, or with its budget
* `report_firstTerminal`: what a stationary method reports
-/

namespace EquationSolver.Linear

variable {α : Type} {n : Nat} [Add α] [Sub α] [Mul α] [Zero α] [SquareRoot α]

section

variable (sweep : Sweep α n) (A : Dense α n n) (b : Vector α n) (rule : StopRule)

/-- The iterates of a sweep, from the zero vector. -/
def sweepIterate (k : Nat) : Vector α n := (sweep A b)^[k] (.replicate n 0)

/-- The metric of an iterate: the size of its residual, or of its change from the one before. -/
def metricAt (k : Nat) : α :=
  match rule with
  | .residual => norm (difference (A.mulVec (sweepIterate sweep A b k)) b)
  | .change => norm (difference (sweepIterate sweep A b k) (sweepIterate sweep A b (k - 1)))

/-- What is recorded of an iterate. -/
def recordAt (k : Nat) : SweepRecord α n :=
  ⟨k, sweepIterate sweep A b k, metricAt sweep A b rule k⟩

/-- A report of an iterate, with the records up to it if they are asked for. -/
structure Report.Shows (report : Report α n) (status : Status) (k : Nat) (withSteps : Bool) :
    Prop where
  status_eq : report.status = status
  iterations_eq : report.iterations = k
  solution_eq : report.solution = (sweepIterate sweep A b k).toList
  steps_eq : report.steps =
    if withSteps then some ((List.range' 1 k).map (recordAt sweep A b rule)) else none

variable [LT α] [OfScientific α] [Scalar α] (tol : α)

/-- The iterate or its metric grew too large or is not finite. -/
def DivergesAt (k : Nat) : Prop :=
  Scalar.isFinite (metricAt sweep A b rule k) = false ∨
    (∃ i, Scalar.isFinite ((sweepIterate sweep A b k).get i) = false) ∨
      (1e12 : α) < norm (sweepIterate sweep A b k)

/-- The iterate ends a run: it diverges, or its metric is below the tolerance. -/
def TerminalAt (k : Nat) : Prop :=
  DivergesAt sweep A b rule k ∨ metricAt sweep A b rule k < tol

/-- The iterate is terminal, and no earlier one is; the start does not count. -/
structure IsFirstTerminal (k : Nat) : Prop where
  pos : 1 ≤ k
  terminal : TerminalAt sweep A b rule tol k
  earlier : ∀ j < k, 1 ≤ j → ¬ TerminalAt sweep A b rule tol j

/-- The requests that no stationary method takes. -/
inductive Unusable (A : Dense α n n) : Option (StationaryParams α) → Prop where
  | missing : Unusable A none
  | tolerance {p : StationaryParams α} : ¬ 0 < p.tolerance → Unusable A (some p)
  | budget {p : StationaryParams α} : p.maxIterations ≤ 0 → Unusable A (some p)
  | unknownStop {p : StationaryParams α} {text : String} : p.stop = .error text →
      Unusable A (some p)
  | tinyDiagonal {params : Option (StationaryParams α)} {i : Fin n} : IsTiny (A i i) →
      Unusable A params

end

/-! ## One turn -/

omit [Add α] [Sub α] [Mul α] [SquareRoot α] in
theorem sweepIterate_succ (sweep : Sweep α n) (A : Dense α n n) (b : Vector α n) (k : Nat) :
    sweepIterate sweep A b (k + 1) = sweep A b (sweepIterate sweep A b k) :=
  Function.iterate_succ_apply' ..

/-- The metric of a turn is that of the iterate it reaches. -/
theorem metric_sweepIterate (sweep : Sweep α n) (A : Dense α n n) (b : Vector α n)
    (rule : StopRule) (k : Nat) :
    rule.metric A b (sweepIterate sweep A b k) (sweepIterate sweep A b (k + 1)) =
      metricAt sweep A b rule (k + 1) := by
  cases rule <;> rfl

variable [LT α] [DecidableLT α] [OfScientific α] [Scalar α]

omit [Sub α] in
theorem hasDiverged_eq_true_iff {metric : α} {x : Vector α n} : hasDiverged metric x = true ↔
    Scalar.isFinite metric = false ∨ (∃ i, Scalar.isFinite (x.get i) = false) ∨
      (1e12 : α) < norm x := by
  simp [hasDiverged, or_assoc]

section

variable {sweep : Sweep α n} {A : Dense α n n} {b : Vector α n} {rule : StopRule} {tol : α}

instance (k : Nat) : Decidable (DivergesAt sweep A b rule k) :=
  decidable_of_iff (hasDiverged (metricAt sweep A b rule k) (sweepIterate sweep A b k) = true)
    hasDiverged_eq_true_iff

instance (k : Nat) : Decidable (TerminalAt sweep A b rule tol k) :=
  inferInstanceAs (Decidable (_ ∨ _))

instance (k : Nat) : Decidable (IsFirstTerminal sweep A b rule tol k) :=
  decidable_of_iff (1 ≤ k ∧ TerminalAt sweep A b rule tol k ∧
      ∀ j < k, 1 ≤ j → ¬ TerminalAt sweep A b rule tol j)
    ⟨fun ⟨pos, terminal, earlier⟩ => ⟨pos, terminal, earlier⟩,
      fun ⟨pos, terminal, earlier⟩ => ⟨pos, terminal, earlier⟩⟩

end

section

variable (sweep : Sweep α n) (A : Dense α n n) (b : Vector α n) (rule : StopRule) (tol : α)

/-- A turn from an iterate reaches the next one, and its tests are those of that iterate. -/
theorem stationaryTurn_sweepIterate (k : Nat) :
    stationaryTurn sweep A b rule tol (k + 1) (sweepIterate sweep A b k) =
      ⟨some (recordAt sweep A b rule (k + 1)),
        if DivergesAt sweep A b rule (k + 1) then
          .stop ⟨.diverged, sweepIterate sweep A b (k + 1), k + 1⟩
        else if metricAt sweep A b rule (k + 1) < tol then
          .stop ⟨.converged, sweepIterate sweep A b (k + 1), k + 1⟩
        else .go (sweepIterate sweep A b (k + 1))⟩ := by
  unfold stationaryTurn
  rw [← sweepIterate_succ sweep A b k]
  dsimp only
  rw [metric_sweepIterate sweep A b rule k]
  congr 1
  exact if_congr hasDiverged_eq_true_iff rfl rfl

end

/-! ## The turns before the first terminal iterate -/

section

variable {sweep : Sweep α n} {A : Dense α n n} {b : Vector α n} {rule : StopRule} {tol : α}

/-- A run passes the iterates that are not terminal, and records each. -/
theorem passes_sweepIterate (count k : Nat)
    (passed : ∀ j, k < j → j ≤ k + count → ¬ TerminalAt sweep A b rule tol j) :
    Passes (stationaryTurn sweep A b rule tol) count (k + 1) (sweepIterate sweep A b k)
      ((List.range' (k + 1) count).map (recordAt sweep A b rule))
      (sweepIterate sweep A b (k + count)) := by
  induction count generalizing k with
  | zero => exact .zero
  | succ count ih =>
    obtain ⟨notDiverged, notSmall⟩ := not_or.mp (passed (k + 1) (by omega) (by omega))
    have goes := stationaryTurn_sweepIterate sweep A b rule tol k
    rw [if_neg notDiverged, if_neg notSmall] at goes
    have rest := ih (k + 1) fun j after upTo => passed j (by omega) (by omega)
    rw [Nat.add_right_comm k 1 count] at rest
    exact .succ goes rest

/-- A run whose budget reaches the first terminal iterate ends with it. -/
theorem stationary_of_isFirstTerminal {k budget : Nat}
    (first : IsFirstTerminal sweep A b rule tol k) (within : k ≤ budget) :
    stationary sweep A b rule tol budget =
      ⟨(List.range' 1 k).map (recordAt sweep A b rule),
        ⟨if DivergesAt sweep A b rule k then .diverged else .converged,
          sweepIterate sweep A b k, k⟩⟩ := by
  obtain ⟨j, rfl⟩ := Nat.exists_eq_add_of_le' first.pos
  have passes := passes_sweepIterate j 0 fun i after _ => first.earlier i (by omega) after
  rw [Nat.zero_add, Nat.zero_add] at passes
  -- The turn after those passed is the one from the iterate before the terminal one.
  have stops : stationaryTurn sweep A b rule tol (1 + j) (sweepIterate sweep A b j) =
      ⟨some (recordAt sweep A b rule (j + 1)),
        .stop ⟨if DivergesAt sweep A b rule (j + 1) then .diverged else .converged,
          sweepIterate sweep A b (j + 1), j + 1⟩⟩ := by
    rw [Nat.add_comm, stationaryTurn_sweepIterate]
    by_cases diverges : DivergesAt sweep A b rule (j + 1)
    · rw [if_pos diverges, if_pos diverges]
    · have small := first.terminal.resolve_left diverges
      rw [if_neg diverges, if_neg diverges, if_pos small]
  have run := passes.iterate_stop stops (fun x => ⟨.exhausted, x, budget⟩) within
  rw [List.range'_1_concat, List.map_append, Nat.add_comm 1 j]
  exact run

omit [DecidableLT α] in
/-- Where some iterate is terminal, a first one is. -/
theorem exists_isFirstTerminal {k : Nat} (pos : 1 ≤ k)
    (terminal : TerminalAt sweep A b rule tol k) :
    ∃ j ≤ k, IsFirstTerminal sweep A b rule tol j := by
  classical
  have ends : ∃ j, 1 ≤ j ∧ TerminalAt sweep A b rule tol j := ⟨k, pos, terminal⟩
  obtain ⟨least_pos, least_terminal⟩ := Nat.find_spec ends
  refine ⟨Nat.find ends, Nat.find_min' ends ⟨pos, terminal⟩, least_pos, least_terminal, ?_⟩
  intro j before pos_j at_j
  exact Nat.find_min ends before ⟨pos_j, at_j⟩

/-- A run whose budget ends before the first terminal iterate passes all of it. -/
theorem stationary_of_beyond {budget : Nat}
    (beyond : ∀ k ≤ budget, ¬ IsFirstTerminal sweep A b rule tol k) :
    stationary sweep A b rule tol budget =
      ⟨(List.range' 1 budget).map (recordAt sweep A b rule),
        ⟨.exhausted, sweepIterate sweep A b budget, budget⟩⟩ := by
  have passed (j : Nat) (after : 0 < j) (upTo : j ≤ 0 + budget) :
      ¬ TerminalAt sweep A b rule tol j := by
    intro terminal
    obtain ⟨k, before, first⟩ := exists_isFirstTerminal after terminal
    exact beyond k (by omega) first
  have passes := passes_sweepIterate budget 0 passed
  rw [Nat.zero_add, Nat.zero_add] at passes
  exact passes.iterate_spent fun x => ⟨.exhausted, x, budget⟩

end

/-- A run ends with the first terminal iterate, or with its budget. -/
theorem stationary_cases (sweep : Sweep α n) (A : Dense α n n) (b : Vector α n) (rule : StopRule)
    (tol : α) (budget : Nat) :
    (∃ k, IsFirstTerminal sweep A b rule tol k ∧ k ≤ budget ∧
      stationary sweep A b rule tol budget =
        ⟨(List.range' 1 k).map (recordAt sweep A b rule),
          ⟨if DivergesAt sweep A b rule k then .diverged else .converged,
            sweepIterate sweep A b k, k⟩⟩) ∨
      stationary sweep A b rule tol budget =
        ⟨(List.range' 1 budget).map (recordAt sweep A b rule),
          ⟨.exhausted, sweepIterate sweep A b budget, budget⟩⟩ := by
  by_cases reached : ∃ k ≤ budget, IsFirstTerminal sweep A b rule tol k
  · obtain ⟨k, within, first⟩ := reached
    exact .inl ⟨k, first, within, stationary_of_isFirstTerminal first within⟩
  · exact .inr (stationary_of_beyond fun k within first => reached ⟨k, within, first⟩)

/-! ## The report -/

variable [Div α]

omit [Add α] [Sub α] [Mul α] [SquareRoot α] [OfScientific α] [Scalar α] [Div α] in
theorem check_eq_ok_iff {params : Option (StationaryParams α)} {p : StationaryParams α}
    {rule : StopRule} : StationaryParams.check params = .ok (p, rule) ↔
      params = some p ∧ 0 < p.tolerance ∧ 0 < p.maxIterations ∧ p.stop = .ok rule := by
  unfold StationaryParams.check
  constructor
  · intro taken
    split at taken
    · cases taken
    rename_i q
    split at taken
    · cases taken
    rename_i tolerance
    split at taken
    · cases taken
    rename_i budget
    split at taken
    · cases taken
    · cases taken
      exact ⟨rfl, Decidable.not_not.mp tolerance, Int.not_le.mp budget, ‹_›⟩
  · rintro ⟨rfl, tolerance, budget, stop⟩
    simp only [tolerance, Int.not_le.mpr budget, stop, not_true_eq_false, if_false]

omit [Add α] [Sub α] [Mul α] [SquareRoot α] [Div α] in
theorem unusable_of_check {params : Option (StationaryParams α)} {cause : StationaryFault}
    (A : Dense α n n) (refused : StationaryParams.check params = .error cause) :
    Unusable A params := by
  unfold StationaryParams.check at refused
  split at refused
  · exact .missing
  split at refused
  · exact .tolerance ‹_›
  split at refused
  · exact .budget ‹_›
  split at refused
  · exact .unknownStop ‹_›
  · cases refused

/-- A request is refused, or it is usable and the method runs. -/
theorem solveStationary_cases (s : LinearSystem α n) (m : StationaryMethod)
    (params : Option (StationaryParams α)) :
    (Unusable s.matrix params ∧ ∃ cause, s.solveStationary m params = .refused m cause) ∨
      (¬ Unusable s.matrix params ∧ ∃ p rule, ∃ budget : Nat, params = some p ∧
        p.stop = .ok rule ∧ p.maxIterations = budget ∧ 0 < budget ∧ s.solveStationary m params =
          .ran m (stationary m.sweep s.matrix s.rhs rule p.tolerance budget)) := by
  unfold LinearSystem.solveStationary
  rcases checked : StationaryParams.check params with cause | ⟨p, rule⟩
  · exact .inl ⟨unusable_of_check s.matrix checked, cause, rfl⟩
  obtain ⟨rfl, tolerance, budget, stop⟩ := check_eq_ok_iff.mp checked
  dsimp only
  split
  · rename_i tiny
    obtain ⟨i, tiny⟩ := (hasTinyDiagonal_eq_true_iff _).mp tiny
    exact .inl ⟨.tinyDiagonal tiny, .zeroDiagonal, rfl⟩
  · rename_i diagonal
    rw [hasTinyDiagonal_eq_true_iff] at diagonal
    refine .inr ⟨?_, p, rule, _, rfl, stop, (Int.toNat_of_nonneg (Int.le_of_lt budget)).symm,
      Int.pos_iff_toNat_pos.mp budget, rfl⟩
    rintro (- | intolerant | empty | unknown | tiny)
    · exact intolerant tolerance
    · exact Int.not_le.mpr budget empty
    · cases stop.symm.trans unknown
    · exact diagonal ⟨_, tiny⟩

/-- **A stationary method reports the first terminal iterate of its sweep.** It refuses the requests
that are unusable and no others. If the first terminal iterate is within its budget, it reports that
one, as diverged if a test of divergence holds of it and as found if not; else it reports the last
iterate of the budget. The steps are the records up to the iterate it reports, and nothing but the
steps depends on whether they are asked for. -/
theorem report_firstTerminal (s : LinearSystem α n) (m : StationaryMethod)
    (params : Option (StationaryParams α)) (withSteps : Bool) :
    let report := (s.solveStationary m params).report withSteps
    (report.status = .invalidInput ↔ Unusable s.matrix params) ∧
      (¬ Unusable s.matrix params → ∃ p rule, ∃ budget : Nat,
        params = some p ∧ p.stop = .ok rule ∧ p.maxIterations = budget ∧
        (∀ k ≤ budget, IsFirstTerminal m.sweep s.matrix s.rhs rule p.tolerance k →
          report.Shows m.sweep s.matrix s.rhs rule
            (if DivergesAt m.sweep s.matrix s.rhs rule k then .divergence else .success)
            k withSteps) ∧
        ((∀ k ≤ budget, ¬ IsFirstTerminal m.sweep s.matrix s.rhs rule p.tolerance k) →
          report.Shows m.sweep s.matrix s.rhs rule .maxIterationsReached budget withSteps)) ∧
      { report with steps := none } = (s.solveStationary m params).report false := by
  intro report
  rcases solveStationary_cases s m params with
    ⟨unusable, cause, answer⟩ | ⟨usable, p, rule, budget, given, stop, counted, -, answer⟩
  · have refused : report = (Answer.refused m cause : Answer α n).report withSteps :=
      congrArg (Answer.report · withSteps) answer
    rw [refused, answer]
    exact ⟨iff_of_true rfl unusable, fun usable => absurd unusable usable, rfl⟩
  · have ran : report = (Answer.ran m
        (stationary m.sweep s.matrix s.rhs rule p.tolerance budget)).report withSteps :=
      congrArg (Answer.report · withSteps) answer
    rw [ran, answer]
    refine ⟨iff_of_false SweepEnd.status_ne_invalidInput usable, ?_, rfl⟩
    intro _
    refine ⟨p, rule, budget, given, stop, counted, ?_, ?_⟩
    · intro k within first
      rw [stationary_of_isFirstTerminal first within]
      exact ⟨apply_ite SweepEnd.status .., rfl, rfl, rfl⟩
    · intro beyond
      rw [stationary_of_beyond beyond]
      exact ⟨rfl, rfl, rfl, rfl⟩

/-- The change of a sweep of `3 * x = 1` is the solution first and nothing after that. -/
theorem report_firstTerminal_thirdOfOne :
    let report := (thirdOfOne.solveStationary .jacobi
      (some ⟨1e-9, 5, .ok .change⟩)).report true
    IsFirstTerminal jacobiSweep thirdOfOne.matrix thirdOfOne.rhs .change 1e-9 2 ∧
      ¬ Unusable thirdOfOne.matrix (some ⟨1e-9, 5, .ok .change⟩) ∧
      report.Shows jacobiSweep thirdOfOne.matrix thirdOfOne.rhs .change .success 2 true := by
  intro report
  have first : IsFirstTerminal jacobiSweep thirdOfOne.matrix thirdOfOne.rhs .change 1e-9 2 := by
    decide +kernel
  obtain ⟨refused, taken, -⟩ :=
    report_firstTerminal thirdOfOne .jacobi (some ⟨1e-9, 5, .ok .change⟩) true
  have usable : ¬ Unusable thirdOfOne.matrix (some ⟨1e-9, 5, .ok .change⟩) := by
    rw [← refused]
    decide +kernel
  refine ⟨first, usable, ?_⟩
  obtain ⟨p, rule, budget, given, stop, counted, within, -⟩ := taken usable
  cases given
  cases stop
  obtain rfl : budget = 5 := Int.ofNat_inj.mp counted.symm
  have shown := within 2 (by decide) first
  rwa [if_neg (by decide +kernel)] at shown

end EquationSolver.Linear
