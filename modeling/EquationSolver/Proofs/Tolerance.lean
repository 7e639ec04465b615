import EquationSolver.Proofs.Double.Order
import EquationSolver.Proofs.Linear.Stationary
import EquationSolver.Proofs.Root.Start

/-!
# Looser tolerances

The points that a method moves to do not depend on the tolerance; only its stopping tests do, and
what passes such a test passes it with a looser tolerance too. With a looser tolerance a run is
therefore the same, or it succeeds in an iteration that the other run also reaches.

## Main definitions

* `Summary.LoosenedTo`: what a looser tolerance does to a report

## Main results

* `Root.process_loosens`: a stopping test that holds also holds for a looser tolerance
* `looser_tolerance_helps`: a looser tolerance never hurts, for all methods that iterate
-/

namespace EquationSolver

variable {t₁ t₂ : Float}

/-- What a looser tolerance does to a report: a success stays one, with no more iterations, and
anything else becomes a success or stays as it is. The trace is cut off. -/
structure Summary.LoosenedTo {Record : Type} (report report' : Summary Record) : Prop where
  /-- A success stays one. -/
  success : report.status = .success →
    report'.status = .success ∧ report'.iterations ≤ report.iterations
  /-- Anything else becomes a success or stays as it is. -/
  failure : report.status ≠ .success → report'.status = .success ∨
    report'.status = report.status ∧ report'.iterations = report.iterations ∧
      report'.message = report.message
  /-- The trace is the beginning of the other one. -/
  steps : Option.Rel (· <+: ·) report'.steps report.steps

namespace Summary

variable {Record : Type} {report report' : Summary Record}

theorem loosenedTo_self (report : Summary Record) : report.LoosenedTo report where
  success h := ⟨h, le_rfl⟩
  failure _ := .inr ⟨rfl, rfl, rfl⟩
  steps := by
    cases report.steps with
    | none => exact .none
    | some trace => exact .some List.prefix_rfl

/-- A success helps that comes no later than another one, on the way to it. -/
theorem loosenedTo_of_success (h : report'.status = .success)
    (sooner : report.status = .success → report'.iterations ≤ report.iterations)
    (shorter : Option.Rel (· <+: ·) report'.steps report.steps) : report.LoosenedTo report' :=
  ⟨fun success => ⟨h, sooner success⟩, fun _ => .inl h, shorter⟩

end Summary

/-! ## Root finding -/

namespace Root

/-- The stopping test of a method holds for every tolerance that is looser than one for which it
holds. -/
def Scheme.Loosens {σ : Type} (S : Scheme σ Float) (t₁ t₂ : Float) : Prop :=
  ∀ s x fx, S.Stops t₁ s x fx → S.Stops t₂ s x fx

theorem process_loosens (r : Request) (f second : Evaluable Float) (m : Method) (le : t₁ ≤ t₂) :
    (r.process f second m).scheme.Loosens t₁ t₂ := by
  intro s x fx
  cases m with
  | bisection => exact .imp_right fun h => Double.le_trans h le
  | regulaFalsi | secant | fixedPoint =>
    exact .imp (fun h => Double.lt_of_lt_of_le h le) fun h => Double.lt_of_lt_of_le h le
  | newton => exact .imp (fun h => Double.le_trans h le) fun h => Double.le_trans h le

section

variable {σ : Type} {S : Scheme σ Float}

theorem turn_shortens (loosens : S.Loosens t₁ t₂) (k : Nat) (s : σ) :
    (S.turn t₁ k s).Shortens (fun outcome => ∃ x, outcome = .success x k) (S.turn t₂ k s) := by
  unfold Scheme.turn
  cases S.point s with
  | error obstacle => exact .inl rfl
  | ok p =>
    obtain ⟨x, fx⟩ := p
    dsimp only
    by_cases large : IsRunaway x ∨ IsRunaway fx
    · rw [if_pos large, if_pos large]
      exact .inl rfl
    rw [if_neg large, if_neg large]
    -- The turns part only where the looser test holds, and there the second one has a root.
    by_cases stops : S.Stops t₂ s x fx
    · rw [if_pos stops]
      exact .inr ⟨_, rfl, _, rfl⟩
    · rw [if_neg stops, if_neg fun h => stops (loosens s x fx h)]
      exact .inl rfl

/-- A success of a run is found in an iteration that the run takes. -/
theorem le_of_iterate_success {tol : Float} {spent : σ → Outcome Float} {budget j k : Nat} {s : σ}
    {x : Float} (h : (iterate (S.turn tol) spent budget j s).outcome = .success x k)
    (exhausted : ∀ s, spent s ≠ .success x k) : j ≤ k := by
  revert h
  refine outcome_iterate_from (Q := fun outcome => outcome = Outcome.success x k → j ≤ k) ?_ ?_
    budget s
  · intro i s record outcome reached stops success
    rcases S.outcome_of_stops stops with ⟨y, rfl⟩ | ⟨cause, rfl⟩ | ⟨-, value, y, cause, rfl⟩
    · cases success
      exact reached
    · cases success
    · cases success
  · exact fun s h => absurd h (exhausted s)

/-- A run of iterations reports its trace. -/
theorem steps_report_of_ends {tol : Float} {budget : Nat} {start : σ}
    {trace : List (Record Float)} {outcome : Outcome Float}
    (h : S.Ends tol budget start trace outcome) (m : Method)
    (steps : Option (List (Record Float))) : (outcome.report m steps).steps = steps := by
  cases h with
  | @stuck _ obstacle =>
    rcases obstacle.outcome_cases (trace.length + 1) with
      ⟨cause, diverged⟩ | ⟨-, value, x, cause, refused⟩
    · rw [diverged]
      rfl
    · rw [refused]
      rfl
  | spent | runaway | found => rfl

/-- A run that finds a root on the way of another one helps, if the other one found its own no
earlier. -/
theorem loosenedTo_of_found {run run' : History Float} {m : Method} {x : Float} {j : Nat}
    (found : run'.outcome = .success x j)
    (within : ∀ y k, run.outcome = .success y k → j ≤ k) (shorter : run'.trace <+: run.trace)
    (reported : ∀ steps, (run.outcome.report m steps).steps = steps) (withSteps : Bool) :
    (m.report run withSteps).summary.LoosenedTo (m.report run' withSteps).summary := by
  have succeeds : (m.report run' withSteps).summary.status = .success :=
    Outcome.status_report_eq_success_iff.mpr ⟨x, j, found⟩
  refine Summary.loosenedTo_of_success succeeds (fun success => ?_) ?_
  · obtain ⟨y, k, other⟩ := Outcome.status_report_eq_success_iff.mp success
    rw [Method.report, Method.report, found, other]
    exact within y k other
  · rw [Report.summary, Report.summary, Method.report, Method.report, reported, found]
    exact prefix_of_reported shorter withSteps

/-- The iterations with a looser tolerance. -/
theorem iterate_loosenedTo (loosens : S.Loosens t₁ t₂) (lead : List (Record Float)) (start : σ)
    (m : Method) (budget : Nat) (withSteps : Bool) :
    (m.report (.after lead (iterate (S.turn t₁) (fun s => .exhausted (S.estimate s) budget) budget 1
      start)) withSteps).summary.LoosenedTo
    (m.report (.after lead (iterate (S.turn t₂) (fun s => .exhausted (S.estimate s) budget) budget 1
      start)) withSteps).summary := by
  rcases iterate_shortens (Q := fun k outcome => ∃ x, outcome = Outcome.success x k)
    (turn_shortens loosens) (fun s => .exhausted (S.estimate s) budget) budget 1 start with
    same | ⟨j, rest, s', ⟨x, found⟩, onward, shorter⟩
  · rw [same]
    exact Summary.loosenedTo_self _
  · refine loosenedTo_of_found (x := x) (j := j) ?_ ?_
      ((List.prefix_append_right_inj lead).mpr shorter) ?_ withSteps
    · exact found
    · exact fun y k success => le_of_iterate_success (onward.symm.trans success) nofun
    · exact steps_report_of_ends (S.ends_iterate t₁ budget start rfl) m

end

/-! ## The start -/

section

variable {σ : Type}

/-- A start with a looser tolerance is the same, or a point will do at once. -/
def Eases (early early' : Option (Outcome Float)) : Prop :=
  early' = early ∨ ∃ x, early' = some (.success x 0)

theorem Eases.ite {p p' : Prop} [Decidable p] [Decidable p'] {x : Float}
    {early early' : Option (Outcome Float)} (h : Eases early early') (eases : p → p') :
    Eases (if p then some (.success x 0) else early)
      (if p' then some (.success x 0) else early') := by
  by_cases easy : p'
  · rw [if_pos easy]
    exact .inr ⟨x, rfl⟩
  · rwa [if_neg easy, if_neg fun h => easy (eases h)]

theorem Eases.none : Eases none none := .inl rfl

/-- Two starts that are the same, unless a point will do at once for the second one. -/
def Loosened : Except (Outcome Float) (Entry σ Float) →
    Except (Outcome Float) (Entry σ Float) → Prop
  | .error outcome, .error outcome' => outcome' = outcome
  | .ok e, .ok e' => e'.state = e.state ∧ e'.lead = e.lead ∧ Eases e.early? e'.early?
  | _, _ => False

theorem guessEntry_loosened (f : Evaluable Float) (keep : Float → Float → σ)
    {Found Found' : Float → Prop} [DecidablePred Found] [DecidablePred Found'] (x : Option Float)
    (eases : ∀ fx, Found fx → Found' fx) :
    Loosened (guessEntry f keep Found x) (guessEntry f keep Found' x) := by
  match x with
  | none => rfl
  | some x =>
    rw [guessEntry, guessEntry]
    cases startValue .firstGuess f x with
    | error outcome => rfl
    | ok fx =>
      refine ⟨rfl, rfl, ?_⟩
      dsimp only
      by_cases large : IsRunaway x ∨ IsRunaway fx
      · rw [if_pos large, if_pos large]
        exact .inl rfl
      · rw [if_neg large, if_neg large]
        exact Eases.none.ite (eases fx)

/-- A method starts in the same way with a looser tolerance, unless a point will do at once. -/
theorem entry_loosened (r : Request) (f second : Evaluable Float) (m : Method) (le : t₁ ≤ t₂) :
    Loosened ((r.process f second m).entry t₁) ((r.process f second m).entry t₂) := by
  have below {x : Float} (h : x < t₁) : x < t₂ := Double.lt_of_lt_of_le h le
  have within {x : Float} (h : x ≤ t₁) : x ≤ t₂ := Double.le_trans h le
  cases m with
  | bisection =>
    dsimp only [Request.process, bisectionProcess]
    cases bracket? f r.a r.b with
    | error outcome => rfl
    | ok s => exact ⟨rfl, rfl, ((Eases.none.ite within).ite id).ite id⟩
  | regulaFalsi =>
    dsimp only [Request.process, regulaFalsiProcess]
    cases bracket? f r.a r.b with
    | error outcome => rfl
    | ok s => exact ⟨rfl, rfl, ((Eases.none.ite below).ite below).ite below⟩
  | secant =>
    dsimp only [Request.process, secantProcess]
    cases chord? f (r.initialGuess <|> r.a) (r.secondGuess <|> r.b) with
    | error outcome => rfl
    | ok s => exact ⟨rfl, rfl, (Eases.none.ite below).ite below⟩
  | newton => exact guessEntry_loosened f Prod.mk r.initialGuess fun _ => within
  | fixedPoint => exact guessEntry_loosened f (fun x _ => x) r.initialGuess fun _ => below

theorem runFrom_loosenedTo {m : Method} (P : Process σ Float) (loosens : P.scheme.Loosens t₁ t₂)
    {e e' : Entry σ Float} (loosened : Loosened (.ok e) (.ok e')) (budget : Nat)
    (isEarly : ∀ outcome ∈ e.early?, outcome.IsEarly) (withSteps : Bool) :
    (m.report (P.runFrom t₁ budget e) withSteps).summary.LoosenedTo
      (m.report (P.runFrom t₂ budget e') withSteps).summary := by
  obtain ⟨state, lead, early'⟩ := e'
  obtain ⟨rfl, rfl, eases⟩ := loosened
  obtain ⟨state, lead, early⟩ := e
  rw [Process.runFrom, Process.runFrom]
  dsimp only at eases ⊢
  -- Either both runs start alike, or the second one is over before its first iteration.
  rcases eases with rfl | ⟨x, rfl⟩
  · cases early' with
    | some outcome => exact Summary.loosenedTo_self _
    | none => exact iterate_loosenedTo loosens lead state m budget withSteps
  · refine loosenedTo_of_found (x := x) (j := 0) rfl (fun _ _ _ => Nat.zero_le _)
      ((List.prefix_append_right_inj lead).mpr List.nil_prefix) (fun steps => ?_) withSteps
    cases early with
    | some outcome =>
      have isEarly := isEarly outcome rfl
      cases outcome with
      | success | diverged => rfl
      | exhausted | invalid => exact isEarly.elim
    | none => exact steps_report_of_ends (P.scheme.ends_iterate t₁ budget state rfl) m steps

theorem run_loosenedTo (r : Request) (f second : Evaluable Float) (m : Method) (le : t₁ ≤ t₂)
    (budget : Nat) (withSteps : Bool) :
    (m.report ((r.process f second m).run t₁ budget) withSteps).summary.LoosenedTo
      (m.report ((r.process f second m).run t₂ budget) withSteps).summary := by
  have loosened := entry_loosened r f second m le
  rw [Process.run, Process.run]
  cases entry : (r.process f second m).entry t₁ with
  | error outcome =>
    cases entry' : (r.process f second m).entry t₂ with
    | error outcome' =>
      rw [entry, entry'] at loosened
      obtain rfl : outcome' = outcome := loosened
      exact Summary.loosenedTo_self _
    | ok e' =>
      rw [entry, entry'] at loosened
      exact loosened.elim
  | ok e =>
    cases entry' : (r.process f second m).entry t₂ with
    | error outcome' =>
      rw [entry, entry'] at loosened
      exact loosened.elim
    | ok e' =>
      rw [entry, entry'] at loosened
      exact runFrom_loosenedTo _ (process_loosens r f second m le) loosened budget
        (isEarly_of_entry entry) withSteps

end

theorem refusal?_tolerance (r : Request) {tol : Float} (pos : 0 < tol) :
    { r with tolerance := tol }.refusal? =
      if isMissing r.function then some .functionMissing
      else if r.maxIterations ≤ 0 then some .budget else none := by
  have small : ¬ ¬ 0 < tol := not_not_intro pos
  simp only [Request.refusal?, if_neg small]

/-- What is run for a request does not depend on its tolerance. -/
theorem plan_tolerance (r : Request) (h₁ : 0 < t₁) (h₂ : 0 < t₂) :
    { r with tolerance := t₂ }.plan = { r with tolerance := t₁ }.plan := by
  simp only [Request.plan, refusal?_tolerance r h₁, refusal?_tolerance r h₂]
  rfl

theorem solve_loosenedTo (r : Request) (pos : 0 < t₁) (le : t₁ ≤ t₂) (withSteps : Bool) :
    ((solve { r with tolerance := t₁ }).report withSteps).summary.LoosenedTo
      ((solve { r with tolerance := t₂ }).report withSteps).summary := by
  have plan := plan_tolerance r pos (Double.lt_of_lt_of_le pos le)
  cases tight : { r with tolerance := t₁ }.plan with
  | error cause =>
    rw [tight] at plan
    cases cause with
    | none =>
      rw [report_of_plan_unknown tight, report_of_plan_unknown plan]
      exact Summary.loosenedTo_self _
    | some cause =>
      rw [report_of_plan_refused tight, report_of_plan_refused plan]
      exact Summary.loosenedTo_self _
  | ok run =>
    obtain ⟨m, f, second⟩ := run
    rw [tight] at plan
    rw [report_of_plan_ok tight, report_of_plan_ok plan]
    exact run_loosenedTo r f.eval second m le r.budget withSteps

end Root

/-! ## Linear systems -/

namespace Linear

variable {n : Nat}

variable (sweep : Sweep Float n) (A : Dense Float n n) (b : Vector Float n) (rule : StopRule)

theorem stationaryTurn_shortens (le : t₁ ≤ t₂) (k : Nat) (x : Vector Float n) :
    (stationaryTurn sweep A b rule t₁ k x).Shortens
      (fun outcome => outcome.ending = .converged ∧ outcome.iterations = k)
      (stationaryTurn sweep A b rule t₂ k x) := by
  unfold stationaryTurn
  dsimp only
  split
  · exact .inl rfl
  by_cases small : rule.metric A b x (sweep A b x) < t₂
  · rw [if_pos small]
    exact .inr ⟨_, rfl, rfl, rfl⟩
  · rw [if_neg small, if_neg fun h => small (Double.lt_of_lt_of_le h le)]
    exact .inl rfl

variable {sweep A b rule} in
/-- A run that converges does so in a sweep that it takes. -/
theorem le_of_iterate_converged {tol : Float} {spent : Vector Float n → SweepOutcome Float n}
    {budget j : Nat} {x : Vector Float n} {outcome : SweepOutcome Float n}
    (h : (iterate (stationaryTurn sweep A b rule tol) spent budget j x).outcome = outcome)
    (converged : outcome.ending = .converged) (exhausted : ∀ x, (spent x).ending ≠ .converged) :
    j ≤ outcome.iterations := by
  subst h
  revert converged
  refine outcome_iterate_from
    (Q := fun o : SweepOutcome Float n => o.ending = .converged → j ≤ o.iterations) ?_ ?_ budget x
  · intro i x record outcome reached stops _
    rwa [(outcome_of_stops stops).2]
  · exact fun x h => absurd h (exhausted x)

theorem stationary_loosenedTo (le : t₁ ≤ t₂) (m : StationaryMethod) (budget : Nat)
    (withSteps : Bool) :
    ((Answer.ran m (stationary sweep A b rule t₁ budget)).report withSteps).summary.LoosenedTo
      ((Answer.ran m (stationary sweep A b rule t₂ budget)).report withSteps).summary := by
  rcases iterate_shortens
    (Q := fun k (o : SweepOutcome Float n) => o.ending = .converged ∧ o.iterations = k)
    (stationaryTurn_shortens sweep A b rule le) (fun x => ⟨.exhausted, x, budget⟩) budget 1
    (.replicate n 0) with same | ⟨j, rest, x, ⟨ending, iterations⟩, onward, shorter⟩
  · rw [stationary, stationary, same]
    exact Summary.loosenedTo_self _
  · have succeeds : ((Answer.ran m (stationary sweep A b rule t₂ budget)).report withSteps).status =
        .success := congrArg SweepEnd.status ending
    refine Summary.loosenedTo_of_success succeeds (fun success => ?_) ?_
    · have converged := SweepEnd.status_eq_success_iff.mp success
      exact iterations.trans_le (le_of_iterate_converged onward.symm converged fun _ => nofun)
    · exact prefix_of_reported shorter withSteps

theorem check_tolerance (p : StationaryParams Float) {tol : Float} (pos : 0 < tol) :
    StationaryParams.check (some { p with tolerance := tol }) =
      if p.maxIterations ≤ 0 then .error .budget
      else match p.stop with
        | .error text => .error (.unknownStop text)
        | .ok rule => .ok ({ p with tolerance := tol }, rule) := by
  exact if_neg (not_not_intro pos)

theorem solveStationary_loosenedTo (s : LinearSystem Float n) (m : StationaryMethod)
    (p : StationaryParams Float) (pos : 0 < t₁) (le : t₁ ≤ t₂) (withSteps : Bool) :
    ((s.solveStationary m (some { p with tolerance := t₁ })).report withSteps).summary.LoosenedTo
      ((s.solveStationary m (some { p with tolerance := t₂ })).report withSteps).summary := by
  rw [LinearSystem.solveStationary, LinearSystem.solveStationary, check_tolerance p pos,
    check_tolerance p (Double.lt_of_lt_of_le pos le)]
  by_cases empty : p.maxIterations ≤ 0
  · rw [if_pos empty, if_pos empty]
    exact Summary.loosenedTo_self _
  rw [if_neg empty, if_neg empty]
  cases p.stop with
  | error text => exact Summary.loosenedTo_self _
  | ok rule =>
    dsimp only
    split
    · exact Summary.loosenedTo_self _
    · exact stationary_loosenedTo _ _ _ _ le m _ withSteps

end Linear

/-- **A looser tolerance never hurts**, for the methods of root finding and for the stationary
methods: a success stays one and comes no later, and anything else becomes one or stays as it is. -/
theorem looser_tolerance_helps (pos : 0 < t₁) (le : t₁ ≤ t₂) :
    (∀ (r : Root.Request) (withSteps : Bool),
      ((Root.solve { r with tolerance := t₁ }).report withSteps).summary.LoosenedTo
        ((Root.solve { r with tolerance := t₂ }).report withSteps).summary) ∧
    ∀ (n : Nat) (s : Linear.LinearSystem Float n) (m : Linear.StationaryMethod)
      (p : Linear.StationaryParams Float) (withSteps : Bool),
      ((s.solve (.stationary m) (some { p with tolerance := t₁ })).report
        withSteps).summary.LoosenedTo
        ((s.solve (.stationary m) (some { p with tolerance := t₂ })).report withSteps).summary :=
  ⟨fun r withSteps => Root.solve_loosenedTo r pos le withSteps,
    fun _ s m p withSteps => Linear.solveStationary_loosenedTo s m p pos le withSteps⟩

/-- Bisection around a pole succeeds in its first iteration, if the bracket may stay wide, and so
does the first sweep over an equation. With a looser tolerance they succeed no later. -/
theorem looser_tolerance_helps_wide :
    (((Root.solve (Root.aroundPole 4 2)).report true).summary.status = .success ∧
      ((Root.solve (Root.aroundPole 4 2)).report true).summary.iterations ≤ 1) ∧
    ((Linear.thirdOfOne.solve (.stationary .jacobi)
      (some ⟨4, 2, .ok .change⟩)).report true).summary.status = .success ∧
    ((Linear.thirdOfOne.solve (.stationary .jacobi)
      (some ⟨4, 2, .ok .change⟩)).report true).summary.iterations ≤ 1 := by
  have tight : (0 : Float) < 2 := by decide +kernel
  obtain ⟨root, linear⟩ := looser_tolerance_helps tight (show (2 : Float) ≤ 4 by decide +kernel)
  have bisection : ((Root.solve (Root.aroundPole 2 2)).report true).summary.status = .success ∧
      ((Root.solve (Root.aroundPole 2 2)).report true).summary.iterations = 1 := by
    rw [Root.report_of_plan_ok (Root.plan_aroundPole tight (by decide))]
    decide +kernel
  have sweeps : ((Linear.thirdOfOne.solve (.stationary .jacobi)
        (some ⟨2, 2, .ok .change⟩)).report true).summary.status = .success ∧
      ((Linear.thirdOfOne.solve (.stationary .jacobi)
        (some ⟨2, 2, .ok .change⟩)).report true).summary.iterations = 1 := by
    decide +kernel
  obtain ⟨succeeds, soon⟩ := (root (Root.aroundPole 2 2) true).success bisection.1
  obtain ⟨converges, early⟩ :=
    (linear 1 Linear.thirdOfOne .jacobi ⟨2, 2, .ok .change⟩ true).success sweeps.1
  exact ⟨⟨succeeds, soon.trans_eq bisection.2⟩, converges, early.trans_eq sweeps.2⟩

end EquationSolver
