import EquationSolver.Proofs.Linear.Stationary
import EquationSolver.Proofs.Root.Start

/-!
# Larger budgets

No iteration looks at the budget, and neither does the start of a method. With a larger budget a run
that ended is therefore the same, and a run that spent its budget goes on from where it was: it
makes the same records and takes at least one more iteration.

## Main definitions

* `ExtendedBy`: what a larger budget does to a report

## Main results

* `iterate_budget`: a run with a larger budget is the same, or goes on where the other one ended
* `larger_budget_extends`: a larger budget only extends a run, for all methods that iterate
-/

namespace EquationSolver

/-- What a larger budget does to a report: nothing, unless the budget was spent. Then there are more
iterations than that, and the trace goes on. -/
structure ExtendedBy {Report Record : Type} (summary : Report → Summary Record) (N M : Int)
    (report report' : Report) : Prop where
  /-- A run that ended is the same. -/
  unspent : (summary report).status ≠ .maxIterationsReached → report' = report
  /-- A run that spent its budget goes on. -/
  spent : (summary report).status = .maxIterationsReached → N < M →
    N < (summary report').iterations ∧
      Option.Rel (· <+: ·) (summary report).steps (summary report').steps

theorem extendedBy_self {Report Record : Type} {summary : Report → Summary Record}
    {report : Report} (h : (summary report).status ≠ .maxIterationsReached) (N M : Int) :
    ExtendedBy summary N M report report := ⟨fun _ => rfl, fun spent => absurd spent h⟩

section

variable {State Record Outcome : Type} (turn : Nat → State → Turn State Record Outcome)
  (spent : Nat → State → Outcome)

/-- A run with a larger budget ends with the same turn, or it goes on where the other one has spent
its budget. -/
theorem iterate_budget {N M : Nat} (le : N ≤ M) (k : Nat) (s : State) :
    (iterate turn (spent M) M k s = iterate turn (spent N) N k s ∧
      ∃ j s' r, turn j s' = ⟨r, .stop (iterate turn (spent N) N k s).outcome⟩) ∨
    ∃ t s', iterate turn (spent N) N k s = ⟨t, spent N s'⟩ ∧
      iterate turn (spent M) M k s = (iterate turn (spent M) (M - N) (k + N) s').after t := by
  rcases iterate_cases turn N k s with ⟨t, s', passes⟩ | ⟨n, lt, t, s', r, outcome, passes, stops⟩
  · refine .inr ⟨t, s', passes.iterate_spent _, ?_⟩
    rw [← passes.iterate, Nat.add_sub_cancel' le]
  · rw [passes.iterate_stop stops _ lt, passes.iterate_stop stops _ (lt.trans_le le)]
    exact .inl ⟨rfl, _, s', r, stops⟩

end

/-! ## Root finding -/

namespace Root

theorem refusal?_budget (r : Request) {b : Int} (pos : 0 < b) :
    { r with maxIterations := b }.refusal? =
      if isMissing r.function then some .functionMissing
      else if ¬ 0 < r.tolerance then some .tolerance else none := by
  have enough : ¬ b ≤ 0 := Int.not_le.mpr pos
  simp only [Request.refusal?, if_neg enough]

/-- What is run for a request does not depend on its budget. -/
theorem plan_budget (r : Request) {N M : Int} (hN : 0 < N) (hM : 0 < M) :
    { r with maxIterations := M }.plan = { r with maxIterations := N }.plan := by
  simp only [Request.plan, refusal?_budget r hN, refusal?_budget r hM]
  rfl

section

variable {σ : Type} {S : Scheme σ Float} {tol : Float} {j : Nat} {s : σ}
  {record : Option (Record Float)} {outcome : Outcome Float}

theorem status_of_stops (h : S.turn tol j s = ⟨record, .stop outcome⟩) (m : Method)
    (steps : Option (List (Record Float))) :
    (outcome.report m steps).status ≠ .maxIterationsReached := by
  rcases S.outcome_of_stops h with ⟨x, rfl⟩ | ⟨cause, rfl⟩ | ⟨-, value, x, cause, rfl⟩
  all_goals exact nofun

/-- An iteration after the first one is the last of the run, if it stops. -/
theorem report_of_stops (h : S.turn tol j s = ⟨record, .stop outcome⟩) (later : 1 < j) (m : Method)
    (steps : Option (List (Record Float))) :
    (outcome.report m steps).iterations = j ∧ (outcome.report m steps).steps = steps := by
  rcases S.outcome_of_stops h with ⟨x, rfl⟩ | ⟨cause, rfl⟩ | ⟨first, -⟩
  · exact ⟨rfl, rfl⟩
  · exact ⟨rfl, rfl⟩
  · exact absurd first later.ne'

end

variable {r : Request} {f second : Evaluable Float} {m : Method} {N M : Nat}

/-- The report of the iterations, with records in front of theirs. -/
theorem iterate_extendedBy {σ : Type} (S : Scheme σ Float) (tol : Float)
    (lead : List (Record Float)) (start : σ) (m : Method) (pos : 0 < N) (le : N ≤ M)
    (withSteps : Bool) :
    ExtendedBy Report.summary N M
      (m.report (.after lead
        (iterate (S.turn tol) (fun s => .exhausted (S.estimate s) N) N 1 start)) withSteps)
      (m.report (.after lead
        (iterate (S.turn tol) (fun s => .exhausted (S.estimate s) M) M 1 start)) withSteps) := by
  rcases iterate_budget (S.turn tol) (fun b s => .exhausted (S.estimate s) b) le 1 start with
    ⟨same, j, s', record, stops⟩ | ⟨t, s', short, long⟩
  · rw [same]
    exact extendedBy_self (status_of_stops stops m _) N M
  · rw [short, long]
    refine ⟨fun unspent => absurd rfl unspent, fun _ lt => ?_⟩
    generalize rest : iterate (S.turn tol) (fun s => .exhausted (S.estimate s) M) (M - N) (1 + N)
      s' = run
    -- The first iteration is over, so that the run is not refused any more and reports its trace.
    have later : ∀ steps, N < (run.outcome.report m steps).iterations ∧
        (run.outcome.report m steps).steps = steps := by
      subst rest
      refine outcome_iterate_from (Q := fun outcome : Outcome Float => ∀ steps,
        N < (outcome.report m steps).iterations ∧ (outcome.report m steps).steps = steps) ?_ ?_ _ s'
      · intro j s record outcome reached stops steps
        obtain ⟨iterations, steps⟩ := report_of_stops stops (by omega) m steps
        exact ⟨by omega, steps⟩
      · exact fun s steps => ⟨Int.ofNat_lt.mp lt, rfl⟩
    refine ⟨Int.ofNat_lt.mpr (later _).1, ?_⟩
    dsimp only [Method.report, Run.after, Report.summary]
    rw [(later _).2]
    exact prefix_of_reported ((List.prefix_append_right_inj lead).mpr (List.prefix_append ..))
      withSteps

theorem run_extendedBy (r : Request) (f second : Evaluable Float) (m : Method) (pos : 0 < N)
    (le : N ≤ M) (withSteps : Bool) :
    ExtendedBy Report.summary N M
      (m.report ((r.process f second m).run r.tolerance N) withSteps)
      (m.report ((r.process f second m).run r.tolerance M) withSteps) := by
  rw [Process.run, Process.run]
  cases entry : (r.process f second m).entry r.tolerance with
  | error outcome =>
    refine extendedBy_self ?_ N M
    rcases outcome_of_entry entry with ⟨fault, rfl⟩ | ⟨cause, rfl⟩
    · have refused : ((Outcome.invalid fault).report m
          (if withSteps then some [] else none)).status = .invalidInput :=
        Outcome.status_report_eq_invalidInput_iff.mpr ⟨fault, rfl⟩
      intro spent
      cases refused.symm.trans spent
    · rintro ⟨⟩
  | ok e =>
    dsimp only
    rw [Process.runFrom, Process.runFrom]
    cases early : e.early? with
    | some outcome =>
      refine extendedBy_self ?_ N M
      have isEarly := isEarly_of_entry entry outcome early
      cases outcome with
      | success | diverged => rintro ⟨⟩
      | exhausted | invalid => exact isEarly.elim
    | none => exact iterate_extendedBy _ _ _ _ _ pos le withSteps

theorem solve_extendedBy (r : Request) {N M : Int} (pos : 0 < N) (le : N ≤ M) (withSteps : Bool) :
    ExtendedBy Report.summary N M ((solve { r with maxIterations := N }).report withSteps)
      ((solve { r with maxIterations := M }).report withSteps) := by
  have plan := plan_budget r pos (Int.lt_of_lt_of_le pos le)
  -- Requests that come to no run are refused or name no method with either budget.
  cases short : { r with maxIterations := N }.plan with
  | error cause =>
    rw [short] at plan
    cases cause with
    | none =>
      rw [report_of_plan_unknown short, report_of_plan_unknown plan]
      exact extendedBy_self (by nofun) N M
    | some cause =>
      rw [report_of_plan_refused short, report_of_plan_refused plan]
      exact extendedBy_self (by nofun) N M
  | ok run =>
    obtain ⟨m, f, second⟩ := run
    rw [short] at plan
    rw [report_of_plan_ok short, report_of_plan_ok plan]
    obtain ⟨N, rfl⟩ := Int.eq_ofNat_of_zero_le (Int.le_of_lt pos)
    obtain ⟨M, rfl⟩ := Int.eq_ofNat_of_zero_le (Int.le_trans (Int.le_of_lt pos) le)
    exact run_extendedBy r f.eval second m (Int.ofNat_lt.mp pos) (Int.ofNat_le.mp le) withSteps

end Root

/-! ## Linear systems -/

namespace Linear

variable {α : Type} {n : Nat}

/-- The report of the sweeps. -/
theorem stationary_extendedBy [Add α] [Sub α] [Mul α] [Zero α] [LT α] [DecidableLT α]
    [OfScientific α] [Scalar α] [SquareRoot α] (sweep : Sweep α n) (A : Dense α n n)
    (b : Vector α n) (rule : StopRule) (tol : α) (m : StationaryMethod) {N M : Nat} (le : N ≤ M)
    (withSteps : Bool) :
    ExtendedBy Report.summary N M
      ((Answer.ran m (stationary sweep A b rule tol N)).report withSteps)
      ((Answer.ran m (stationary sweep A b rule tol M)).report withSteps) := by
  rw [stationary, stationary]
  rcases iterate_budget (stationaryTurn sweep A b rule tol) (fun b x => ⟨.exhausted, x, b⟩) le 1
    (.replicate n 0) with ⟨same, j, x, record, stops⟩ | ⟨t, x, short, long⟩
  · rw [same]
    refine extendedBy_self (fun spent => (outcome_of_stops stops).1 ?_) N M
    exact SweepEnd.status_eq_maxIterationsReached_iff.mp spent
  · rw [short, long]
    refine ⟨fun unspent => absurd rfl unspent, fun _ lt => ⟨?_, ?_⟩⟩
    · refine Int.ofNat_lt.mpr (outcome_iterate_from
        (Q := fun outcome : SweepOutcome α n => N < outcome.iterations) ?_ ?_ (M - N) x)
      · intro j x record outcome reached stops
        have := (outcome_of_stops stops).2
        omega
      · exact fun _ => Int.ofNat_lt.mp lt
    · exact prefix_of_reported (List.prefix_append ..) withSteps

theorem check_budget [Zero α] [LT α] [DecidableLT α] (p : StationaryParams α) {b : Int}
    (pos : 0 < b) :
    StationaryParams.check (some { p with maxIterations := b }) =
      if ¬ 0 < p.tolerance then .error .tolerance
      else match p.stop with
        | .error text => .error (.unknownStop text)
        | .ok rule => .ok ({ p with maxIterations := b }, rule) := by
  have enough : ¬ b ≤ 0 := Int.not_le.mpr pos
  by_cases small : ¬ 0 < p.tolerance
  · exact (if_pos small).trans (if_pos small).symm
  · exact ((if_neg small).trans (if_neg enough)).trans (if_neg small).symm

theorem solveStationary_extendedBy [Add α] [Sub α] [Mul α] [Div α] [Zero α] [LT α] [DecidableLT α]
    [OfScientific α] [Scalar α] [SquareRoot α] (s : LinearSystem α n) (m : StationaryMethod)
    (p : StationaryParams α) {N M : Int} (pos : 0 < N) (le : N ≤ M) (withSteps : Bool) :
    ExtendedBy Report.summary N M
      ((s.solveStationary m (some { p with maxIterations := N })).report withSteps)
      ((s.solveStationary m (some { p with maxIterations := M })).report withSteps) := by
  rw [LinearSystem.solveStationary, LinearSystem.solveStationary, check_budget p pos,
    check_budget p (Int.lt_of_lt_of_le pos le)]
  by_cases small : ¬ 0 < p.tolerance
  · rw [if_pos small, if_pos small]
    exact extendedBy_self (by nofun) N M
  rw [if_neg small, if_neg small]
  cases p.stop with
  | error text => exact extendedBy_self (by nofun) N M
  | ok rule =>
    dsimp only
    split
    · exact extendedBy_self (by nofun) N M
    · obtain ⟨N, rfl⟩ := Int.eq_ofNat_of_zero_le (Int.le_of_lt pos)
      obtain ⟨M, rfl⟩ := Int.eq_ofNat_of_zero_le (Int.le_trans (Int.le_of_lt pos) le)
      exact stationary_extendedBy _ _ _ _ _ m (Int.ofNat_le.mp le) withSteps

end Linear

/-- **A larger budget only extends a run**, for the methods of root finding and for the stationary
methods: a run that ended is the same, and a run that spent its budget goes on. -/
theorem larger_budget_extends {N M : Int} (pos : 0 < N) (le : N ≤ M) :
    (∀ (r : Root.Request) (withSteps : Bool),
      ExtendedBy Root.Report.summary N M
        ((Root.solve { r with maxIterations := N }).report withSteps)
        ((Root.solve { r with maxIterations := M }).report withSteps)) ∧
    ∀ (n : Nat) (s : Linear.LinearSystem Float n) (m : Linear.StationaryMethod)
      (p : Linear.StationaryParams Float) (withSteps : Bool),
      ExtendedBy Linear.Report.summary N M
        ((s.solve (.stationary m) (some { p with maxIterations := N })).report withSteps)
        ((s.solve (.stationary m) (some { p with maxIterations := M })).report withSteps) :=
  ⟨fun r withSteps => Root.solve_extendedBy r pos le withSteps,
    fun _ s m p withSteps => Linear.solveStationary_extendedBy s m p pos le withSteps⟩

/-- One iteration is not enough for bisection around a pole, nor for a change below one tenth in the
solution of an equation; a second one is made with a larger budget. -/
theorem larger_budget_extends_second :
    (1 : Int) < ((Root.solve (Root.aroundPole 1 2)).report true).summary.iterations ∧
      (1 : Int) < ((Linear.thirdOfOne.solve (.stationary .jacobi)
        (some ⟨0.1, 2, .ok .change⟩)).report true).summary.iterations := by
  obtain ⟨root, linear⟩ := larger_budget_extends (N := 1) (M := 2) (by decide) (by decide)
  have bisection : ExtendedBy Root.Report.summary 1 2
      ((Root.solve (Root.aroundPole 1 1)).report true)
      ((Root.solve (Root.aroundPole 1 2)).report true) := root (Root.aroundPole 1 1) true
  have sweeps := linear 1 Linear.thirdOfOne .jacobi ⟨0.1, 1, .ok .change⟩ true
  constructor
  · refine (bisection.spent ?_ (by decide)).1
    rw [Root.report_of_plan_ok (Root.plan_aroundPole (by decide +kernel) (by decide))]
    decide +kernel
  · exact (sweeps.spent (by decide +kernel) (by decide)).1

end EquationSolver
