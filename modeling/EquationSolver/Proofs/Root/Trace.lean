import EquationSolver.Proofs.Root.Start

/-!
# Traces of root finding

A trace can be checked against its request: every recorded point is the update of what the method
knew from the points before it, beside it stands the value of the function there, and the run ended
with the first point that passes the stopping test or has diverged. So a trace shows all that a
method did, and its report says where it stopped.

## Main definitions

* `Scheme.Faithful`: what the records of a run say about it and about its report
* `Request.Faithful`: the same for a whole trace of a request

## Main results

* `Scheme.Ends.faithful`: the records of every run are faithful
* `trace_faithful`: the trace of every request is
-/

namespace EquationSolver.Root

variable {σ : Type}

/-- What the records of the iterations say, for a run that starts from a state, and how they fit its
report. -/
structure Scheme.Faithful (M : Scheme σ Float) (tol : Float) (start : σ)
    (steps : List (Record Float)) (report : Report) : Prop where
  /-- Every record is made from what the method knows after the records before it. -/
  made : ∀ before r after, steps = before ++ r :: after →
    M.Makes (before.length + 1) (M.known start before) r
  /-- No point before the last one has diverged or passes the stopping test. -/
  goesOn : ∀ before r after, steps = before ++ r :: after → after ≠ [] →
    M.GoesOn tol (M.known start before) r
  /-- A run succeeds at its last point, which passes the stopping test. -/
  success : report.status = .success → report.iterations = steps.length ∧
    ∀ before r, steps = before ++ [r] → ¬ (IsRunaway r.x ∨ IsRunaway r.fx) ∧
      M.Stops tol (M.known start before) r.x r.fx ∧
      report.root = some (M.root tol (M.known start before) r.x r.fx)
  /-- A run that spent its budget has no point that passes the stopping test. -/
  spent : report.status = .maxIterationsReached → report.iterations = steps.length ∧
    M.Onward tol 1 start steps ∧ report.lastEstimate = some (M.estimate (M.known start steps))
  /-- A run diverges at its last point, or in the iteration after it, which reaches no point. -/
  diverged : report.status = .divergence →
    (report.iterations = steps.length ∧
      ∀ before r, steps = before ++ [r] → IsRunaway r.x ∨ IsRunaway r.fx) ∨
    (report.iterations = steps.length + 1 ∧ M.Onward tol 1 start steps ∧
      ∃ obstacle, M.point (M.known start steps) = .error obstacle)

namespace Scheme

variable {M : Scheme σ Float} {tol : Float} {budget : Nat} {start : σ}
  {steps : List (Record Float)} {r : Record Float} {outcome : Outcome Float}

theorem Onward.made (h : M.Onward tol 1 start steps) :
    ∀ before r after, steps = before ++ r :: after →
      M.Makes (before.length + 1) (M.known start before) r := by
  intro before r after split
  rw [Nat.add_comm]
  exact (h before r after split).1

/-- A last record is a record that was made, and all records before it are not the last. -/
theorem split_of_append_singleton {before after : List (Record Float)} {r' : Record Float}
    (split : steps ++ [r] = before ++ r' :: after) :
    (after = [] ∧ before = steps ∧ r' = r) ∨
      (after ≠ [] ∧ ∃ after', steps = before ++ r' :: after') := by
  -- The place of the split decides by what comes after it.
  rcases List.eq_nil_or_concat after with rfl | ⟨after, last, rfl⟩
  · obtain ⟨rfl, same⟩ := List.append_inj' split rfl
    cases same
    exact .inl ⟨rfl, rfl, rfl⟩
  · rw [List.concat_eq_append] at split ⊢
    refine .inr ⟨by simp, after, ?_⟩
    rw [← List.cons_append, ← List.append_assoc] at split
    exact (List.append_inj' split rfl).1

theorem Onward.made_append (h : M.Onward tol 1 start steps)
    (last : M.Makes (steps.length + 1) (M.known start steps) r) :
    ∀ before r' after, steps ++ [r] = before ++ r' :: after →
      M.Makes (before.length + 1) (M.known start before) r' := by
  intro before r' after split
  rcases split_of_append_singleton split with ⟨-, rfl, rfl⟩ | ⟨-, after', split⟩
  · exact last
  · exact h.made before r' after' split

theorem Onward.goesOn_append (h : M.Onward tol 1 start steps) :
    ∀ before r' after, steps ++ [r] = before ++ r' :: after → after ≠ [] →
      M.GoesOn tol (M.known start before) r' := by
  intro before r' after split nonempty
  rcases split_of_append_singleton split with ⟨rfl, -, -⟩ | ⟨-, after', split⟩
  · exact absurd rfl nonempty
  · exact (h before r' after' split).2

/-- Every record of a run is made from what the method knows after the records before it. -/
theorem Ends.made (h : M.Ends tol budget start steps outcome) :
    ∀ before r after, steps = before ++ r :: after →
      M.Makes (before.length + 1) (M.known start before) r := by
  cases h with
  | spent onward | stuck onward => exact onward.made
  | runaway onward _ made | found onward _ made => exact onward.made_append made

/-- No record of a run before the last one ends it. -/
theorem Ends.goesOn (h : M.Ends tol budget start steps outcome) :
    ∀ before r after, steps = before ++ r :: after → after ≠ [] →
      M.GoesOn tol (M.known start before) r := by
  cases h with
  | spent onward | stuck onward =>
    exact fun before r after split _ => (onward before r after split).2
  | runaway onward | found onward => exact onward.goesOn_append

/-- The records of a run are faithful. -/
theorem Ends.faithful (h : M.Ends tol budget start steps outcome)
    (valid : ∀ fault, outcome ≠ .invalid fault) (m : Method)
    (trace : Option (List (Record Float))) :
    M.Faithful tol start steps (outcome.report m trace) := by
  have made := h.made
  have goesOn := h.goesOn
  cases h with
  | spent onward all =>
    exact {
      made := made
      goesOn := goesOn
      success := nofun
      spent := fun _ => ⟨all.symm, onward, rfl⟩
      diverged := nofun }
  | @stuck _ obstacle onward lt h =>
    -- Otherwise the first iteration would have refused the request.
    obtain ⟨cause, diverged⟩ : ∃ cause, obstacle.outcome (steps.length + 1) =
        .diverged cause (steps.length + 1) :=
      (obstacle.outcome_cases _).resolve_right fun ⟨_, _, _, _, refused⟩ => valid _ refused
    rw [diverged]
    exact {
      made := made
      goesOn := goesOn
      success := nofun
      spent := nofun
      diverged := fun _ => .inr ⟨rfl, onward, obstacle, h⟩ }
  | @runaway steps r onward lt _ large =>
    exact {
      made := made
      goesOn := goesOn
      success := nofun
      spent := nofun
      diverged := by
        intro _
        have length : (steps ++ [r]).length = steps.length + 1 := List.length_append
        refine .inl ⟨length.symm, fun before r' split => ?_⟩
        obtain ⟨-, same⟩ := List.append_inj' split rfl
        cases same
        exact large }
  | @found steps r onward lt _ sized stops =>
    exact {
      made := made
      goesOn := goesOn
      success := by
        intro _
        have length : (steps ++ [r]).length = steps.length + 1 := List.length_append
        refine ⟨length.symm, fun before r' split => ?_⟩
        obtain ⟨rfl, same⟩ := List.append_inj' split rfl
        cases same
        exact ⟨sized, stops, rfl⟩
      spent := nofun
      diverged := nofun }

end Scheme

/-! ## Requests -/

/-- The number of the first record of a method. -/
def Method.firstRecord : Method → Nat
  | .newton | .fixedPoint => 0
  | _ => 1

/-- What the trace of a request says about the run of its method and about its report. -/
structure Request.Faithful (r : Request) (f second : Evaluable Float) (m : Method)
    (trace : List (Record Float)) (report : Report) : Prop where
  /-- The iterations are numbered without a gap. -/
  numbered : trace.map Record.iteration = List.range' m.firstRecord trace.length
  /-- A run that did not diverge ends with its last record. -/
  ended : report.status = .success ∨ report.status = .maxIterationsReached →
    m.firstRecord + trace.length = report.iterations + 1
  /-- A run that diverged ends with its last record or with the iteration after it. -/
  endedLate : report.status = .divergence →
    m.firstRecord + trace.length = report.iterations + 1 ∨
      m.firstRecord + trace.length = report.iterations
  /-- Every recorded value is the value of the function at the recorded point. -/
  values : ∀ step ∈ trace, f step.x = .ok step.fx
  /-- The records of the iterations are faithful, from what the method started with. A method that
  ends without an iteration reports that, and one whose first values are too large has no
  records. -/
  steps : match (r.process f second m).entry r.tolerance with
    | .error _ => trace = [] ∧ report.status = .divergence ∧ report.iterations = 0
    | .ok e => r.Starts f m e ∧ ∃ steps, trace = e.lead ++ steps ∧
      (∀ outcome ∈ e.early?, steps = [] ∧ report = outcome.report m (some trace)) ∧
      (r.process f second m).scheme.Faithful r.tolerance e.state steps report

namespace Scheme.Faithful

variable {M : Scheme σ Float} {tol : Float} {start : σ} {steps : List (Record Float)}
  {report : Report}

theorem numbered (h : M.Faithful tol start steps report) :
    steps.map Record.iteration = List.range' 1 steps.length := by
  refine List.ext_getElem (by simp) fun i hi _ => ?_
  have inside : i < steps.length := by simpa using hi
  have split : steps = steps.take i ++ steps[i] :: steps.drop (i + 1) := by simp
  have record := (h.made _ _ _ split).record
  rw [List.getElem_map, List.getElem_range', record]
  simp [Scheme.record]
  omega

theorem values (h : M.Faithful tol start steps report) :
    ∀ step ∈ steps, M.f step.x = .ok step.fx := by
  intro step mem
  obtain ⟨before, after, split⟩ := List.append_of_mem mem
  exact (h.made before step after split).value

/-- A run that ends before its first iteration has nothing to account for. -/
theorem of_isEarly {outcome : Outcome Float} (early : outcome.IsEarly) (m : Method)
    (trace : Option (List (Record Float))) :
    M.Faithful tol start [] (outcome.report m trace) := by
  have none {before after : List (Record Float)} {r : Record Float}
      (split : [] = before ++ r :: after) : False := by simp at split
  have made : ∀ before r after, [] = before ++ r :: after →
      M.Makes (before.length + 1) (M.known start before) r :=
    fun before r after split => (none split).elim
  have goesOn : ∀ before r after, [] = before ++ r :: after → after ≠ [] →
      M.GoesOn tol (M.known start before) r := fun before r after split => (none split).elim
  cases outcome with
  | success root k =>
    exact ⟨made, goesOn, fun _ => ⟨early, fun before r split => (none split).elim⟩, nofun, nofun⟩
  | diverged cause k =>
    exact ⟨made, goesOn, nofun, nofun,
      fun _ => .inl ⟨early, fun before r split => (none split).elim⟩⟩
  | exhausted | invalid => exact early.elim

/-- A run is over in the iteration of its last record, or in the next one. -/
theorem iterations_eq (h : M.Faithful tol start steps report) :
    (report.status = .success ∨ report.status = .maxIterationsReached →
      steps.length = report.iterations) ∧
    (report.status = .divergence →
      steps.length = report.iterations ∨ steps.length + 1 = report.iterations) := by
  refine ⟨fun ended => ?_, fun diverged => ?_⟩
  · rcases ended with success | spent
    · exact (h.success success).1.symm
    · exact (h.spent spent).1.symm
  · rcases h.diverged diverged with ⟨last, -⟩ | ⟨last, -⟩
    · exact .inl last.symm
    · exact .inr last.symm

end Scheme.Faithful

theorem numbered_of_starts {r : Request} {f : Evaluable Float} {m : Method}
    {e : Entry m.State Float} (h : r.Starts f m e) :
    e.lead.map Record.iteration = List.range' m.firstRecord e.lead.length ∧
      m.firstRecord + e.lead.length = 1 := by
  cases m with
  | bisection | regulaFalsi | secant =>
    rw [h.1]
    exact ⟨rfl, rfl⟩
  | newton =>
    rw [h.1]
    exact ⟨rfl, rfl⟩
  | fixedPoint =>
    obtain ⟨fx, lead, -⟩ := h
    rw [lead]
    exact ⟨rfl, rfl⟩

theorem values_of_starts {r : Request} {f : Evaluable Float} {m : Method}
    {e : Entry m.State Float} (h : r.Starts f m e) : ∀ step ∈ e.lead, f step.x = .ok step.fx := by
  cases m with
  | bisection | regulaFalsi | secant =>
    rw [h.1]
    exact nofun
  | newton =>
    rw [h.1, List.forall_mem_singleton]
    exact h.2.2.1
  | fixedPoint =>
    obtain ⟨fx, lead, -, value, -⟩ := h
    rw [lead, List.forall_mem_singleton]
    exact value

theorem process_f (r : Request) (f second : Evaluable Float) (m : Method) :
    (r.process f second m).scheme.f = f := by
  cases m with
  | bisection | regulaFalsi | secant | newton | fixedPoint => rfl

variable {r : Request} {f second : Evaluable Float} {m : Method}

/-- The records of a method that started account for its report. -/
theorem faithful_of_steps {e : Entry m.State Float} {steps : List (Record Float)} {report : Report}
    (entry : (r.process f second m).entry r.tolerance = .ok e)
    (early : ∀ outcome ∈ e.early?, steps = [] ∧ report = outcome.report m (some (e.lead ++ steps)))
    (h : (r.process f second m).scheme.Faithful r.tolerance e.state steps report) :
    r.Faithful f second m (e.lead ++ steps) report := by
  have starts := starts_of_entry entry
  obtain ⟨numbered, first⟩ := numbered_of_starts starts
  obtain ⟨ended, endedLate⟩ := h.iterations_eq
  have length : m.firstRecord + (e.lead ++ steps).length = steps.length + 1 := by
    rw [List.length_append]
    omega
  exact {
    numbered := by
      rw [List.map_append, numbered, h.numbered, List.length_append, ← List.range'_append_1, first]
    ended := fun last => by rw [length, ended last]
    endedLate := fun diverged => by
      rw [length]
      exact (endedLate diverged).imp_left (congrArg (· + 1))
    values := by
      intro step mem
      rcases List.mem_append.mp mem with mem | mem
      · exact values_of_starts starts step mem
      · have value := h.values step mem
        rwa [process_f] at value
    steps := by
      rw [entry]
      exact ⟨starts, steps, rfl, early, h⟩ }

/-- The run of a method accounts for its report, unless its parameters are refused. -/
theorem faithful_run (f second : Evaluable Float) (r : Request) (m : Method) (budget : Nat)
    {run : History Float} (h : (r.process f second m).run r.tolerance budget = run)
    (valid : ∀ fault, run.outcome ≠ .invalid fault) :
    r.Faithful f second m run.trace (m.report run true) := by
  subst h
  rw [Process.run] at valid ⊢
  cases entry : (r.process f second m).entry r.tolerance with
  | error outcome =>
    rw [entry] at valid
    rcases outcome_of_entry entry with ⟨fault, rfl⟩ | ⟨cause, rfl⟩
    · exact absurd rfl (valid fault)
    · exact {
        numbered := rfl
        ended := by rintro (h | h) <;> cases h
        endedLate := fun _ => by
          cases m with
          | bisection | regulaFalsi | secant => exact .inl rfl
          | newton | fixedPoint => exact .inr rfl
        values := List.forall_mem_nil _
        steps := by
          rw [entry]
          exact ⟨rfl, rfl, rfl⟩ }
  | ok e =>
    rw [entry] at valid
    dsimp only [Process.runFrom, Method.report, Run.after] at valid ⊢
    cases early : e.early? with
    | some outcome =>
      refine faithful_of_steps entry ?_ ?_
      · rintro _ same
        obtain rfl := Option.some.inj (early.symm.trans same)
        exact ⟨rfl, rfl⟩
      · exact .of_isEarly (isEarly_of_entry entry outcome early) m _
    | none =>
      rw [early] at valid
      refine faithful_of_steps entry ?_ ?_
      · rintro _ some
        cases early.symm.trans some
      · exact ((r.process f second m).scheme.ends_iterate r.tolerance budget e.state rfl).faithful
          valid m _

/-- **The trace of a request can be checked against it**: unless the request is refused or names no
method, the trace is that of its method, and it says how the run went and where it stopped. -/
theorem trace_faithful (r : Request) (valid : ((solve r).report true).status ≠ .invalidInput)
    (implemented : ((solve r).report true).status ≠ .notImplemented) :
    ∃ m f second trace, r.method = some m ∧ Formula.ofText? r.function = .ok f ∧
      r.second f m = .ok second ∧ ((solve r).report true).steps = some trace ∧
      r.Faithful f.eval second m trace ((solve r).report true) := by
  cases plan : r.plan with
  | error cause =>
    cases cause with
    | none =>
      rw [report_of_plan_unknown plan] at implemented
      exact absurd rfl implemented
    | some cause =>
      rw [report_of_plan_refused plan] at valid
      exact absurd rfl valid
  | ok run =>
    obtain ⟨m, f, second⟩ := run
    obtain ⟨-, method, function, value⟩ := Request.plan_eq_ok_iff.mp plan
    rw [report_of_plan_ok plan] at valid ⊢
    have started := fun fault h =>
      valid (Outcome.status_report_eq_invalidInput_iff.mpr ⟨fault, h⟩)
    exact ⟨m, f, second, _, method, function, value, Outcome.steps_report started,
      faithful_run f.eval second r m r.budget rfl started⟩

/-- Bisection around a pole records its first midpoint, and diverges at the second one. -/
theorem trace_faithful_aroundPole :
    ((solve (aroundPole 1 2)).report true).status = .divergence ∧
      ∃ m f second trace, (aroundPole 1 2).method = some m ∧
        Formula.ofText? (aroundPole 1 2).function = .ok f ∧
        (aroundPole 1 2).second f m = .ok second ∧
        ((solve (aroundPole 1 2)).report true).steps = some trace ∧
        (aroundPole 1 2).Faithful f.eval second m trace ((solve (aroundPole 1 2)).report true) := by
  have diverged : ((solve (aroundPole 1 2)).report true).status = .divergence := by
    rw [report_of_plan_ok (plan_aroundPole (by decide +kernel) (by decide))]
    decide +kernel
  refine ⟨diverged, trace_faithful (aroundPole 1 2) ?_ ?_⟩
  · rw [diverged]
    exact nofun
  · rw [diverged]
    exact nofun

end EquationSolver.Root
