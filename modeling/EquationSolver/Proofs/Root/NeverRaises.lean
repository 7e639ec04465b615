import EquationSolver.Proofs.Double.Size
import EquationSolver.Proofs.Formula.Operators
import EquationSolver.Proofs.Root.Raising

/-!
# No exception is left

Root finding over computations that can raise comes to the same report as root finding over total
functions: nothing is raised but what a handler turns into a report. Divisors have been tested
before they divide, or are far from zero by what they are made of, and the compiler knows every
operator that it can be given.

A run is read as a computation that makes its records and then ends. One iteration of a method, with
its handler, is the computation of the turn; this is shown for each method, and carried over the
loop by induction on the budget.

## Main definitions

* `ofTurn`, `ofRun`: the computations of an iteration and of a run

## Main results

* `loop_eq`: the loop over the iterations does what the run over the turns does
* `bisection_eq`, `regulaFalsi_eq`, `secant_eq`, `newton_eq`, `fixedPoint_eq`: the methods
* `solve_eq_ok`: every request gets its report, and nothing is raised
-/

namespace EquationSolver.Root.Raising

open Double

variable {σ τ : Type} {f image : Evaluable Float} {derivative : Option (Evaluable Float)}
  {tol : Float} {k : Nat}

/-! ## Runs as computations -/

/-- Makes records. -/
def emit (records : List (Record Float)) : Raising Unit := modify (· ++ records)

/-- Ends with an outcome. That a method could not start is raised. -/
def settle : Outcome Float → Raising (Outcome Float)
  | .invalid (.unevaluable value x cause) => throw (.startPoint value x cause)
  | outcome => pure outcome

/-- The computation of what a method starts from. -/
def ofStart : Except (Outcome Float) σ → Raising (Except (Outcome Float) σ)
  | .ok s => pure (.ok s)
  | .error outcome => Except.error <$> settle outcome

/-- The computation of one iteration. -/
def ofTurn (turn : Turn σ (Record Float) (Outcome Float)) : Raising (Next σ (Outcome Float)) := do
  emit turn.record?.toList
  match turn.next with
  | .go s => pure (.go s)
  | .stop outcome => .stop <$> settle outcome

/-- The computation of a run. -/
def ofRun (run : History Float) : Raising (Outcome Float) := do
  emit run.trace
  settle run.outcome

theorem emit_nil : emit [] = pure () := by
  funext before
  exact congrArg (fun after => (Except.ok (), after)) before.append_nil

theorem emit_append (records records' : List (Record Float)) :
    emit (records ++ records') = (do emit records; emit records') := by
  funext before
  exact congrArg (fun after => (Except.ok (), after)) (List.append_assoc ..).symm

theorem ofTurn_stop (outcome : Outcome Float) :
    ofTurn (σ := σ) ⟨none, .stop outcome⟩ = .stop <$> settle outcome := by
  rw [ofTurn, Option.toList_none, emit_nil, pure_bind]

theorem ofRun_ended (outcome : Outcome Float) : ofRun (.ended outcome) = settle outcome := by
  rw [ofRun, Run.ended, emit_nil, pure_bind]

theorem pure_eq_ofRun_ended {outcome : Outcome Float} (h : settle outcome = pure outcome) :
    pure outcome = ofRun (.ended outcome) := by
  rw [ofRun_ended, h]

theorem ofRun_after (records : List (Record Float)) (run : History Float) :
    ofRun (run.after records) = (do emit records; ofRun run) := by
  rw [ofRun, Run.after, emit_append, bind_assoc]
  rfl

/-- If every iteration does what a turn of the method comes to, then the loop does what the run of
the method does. -/
theorem loop_eq {turn : Nat → σ → Raising (Next σ (Outcome Float))}
    {exhausted : σ → Raising (Outcome Float)}
    {turn' : Nat → σ → Turn σ (Record Float) (Outcome Float)} {exhausted' : σ → Outcome Float}
    (step : ∀ k s, diverging k (turn k s) = ofTurn (turn' k s))
    (spent : ∀ s, exhausted s = settle (exhausted' s)) (budget k : Nat) (s : σ) :
    loop turn exhausted budget k s = ofRun (iterate turn' exhausted' budget k s) := by
  induction budget generalizing k s with
  | zero => rw [loop, iterate_zero, ofRun_ended, spent]
  | succ budget ih =>
    rw [loop, step]
    rcases h : turn' k s with ⟨r, s' | outcome⟩
    · rw [iterate_go _ _ h, ofRun_after, ← ih, ofTurn, bind_assoc]
      rfl
    · -- What an iteration ends with, the run ends with: it is settled only once.
      rw [iterate_stop _ _ h, ofRun, ofTurn, bind_assoc]
      refine bind_congr fun _ => ?_
      rw [bind_map_left, bind_pure]

/-- A method that has no start ends. -/
theorem ofStart_error_bind {next : Except (Outcome Float) σ → Raising (Outcome Float)}
    (ended : ∀ outcome, next (.error outcome) = pure outcome) (outcome : Outcome Float) :
    ofStart (.error outcome) >>= next = ofRun (.ended outcome) := by
  rw [ofRun_ended, ofStart, bind_map_left]
  simp only [ended, bind_pure]

/-! ## Formulas and divisions -/

theorem quotient_eq {y : Float} (h : (y == 0) = false) (x : Float) : quotient x y = pure (x / y) :=
  if_neg (Bool.eq_false_iff.mp h)

/-- A first value without a computation ends the method. -/
theorem ofStart_startValue (value : StartValue) (f : Evaluable Float) (x : Float)
    (next : Float → Except (Outcome Float) σ) :
    ofStart (startValue value f x >>= next) =
      atStart value x (call f x) >>= fun fx => ofStart (next fx) := by
  unfold startValue call
  cases f x <;> rfl

theorem diverging_call (k : Nat) (f : Evaluable Float) (x : Float)
    (next : Float → Raising (Next σ (Outcome Float))) :
    diverging k (call f x >>= next) =
      match f x with
      | .ok fx => diverging k (next fx)
      | .error cause => ofTurn ⟨none, .stop (.diverged (.evaluation cause) k)⟩ := by
  unfold call
  cases f x with
  | ok => rfl
  | error cause => exact (ofTurn_stop (.diverged (.evaluation cause) k)).symm

theorem atStart_call (value : StartValue) (f : Evaluable Float) (x : Float)
    (next : Float → Raising (Outcome Float)) :
    atStart value x (call f x) >>= next =
      match startValue value f x with
      | .ok fx => next fx
      | .error outcome => settle outcome := by
  unfold startValue call
  cases f x <;> rfl

/-- The handler of an iteration lets pass what the first iteration could not start from. -/
theorem diverging_atFirst (k : Nat) (value : StartValue) (f : Evaluable Float) (x : Float)
    (next : Float → Raising (Next σ (Outcome Float))) :
    diverging k (atFirst k value x (call f x) >>= next) =
      match f x with
      | .ok fx => diverging k (next fx)
      | .error cause => ofTurn ⟨none, .stop (failedStart k value x cause)⟩ := by
  unfold atFirst call failedStart
  cases f x with
  | ok => split <;> rfl
  | error cause =>
    -- In the first iteration the inner handler has renamed the exception already.
    dsimp only
    rw [ofTurn_stop]
    split <;> rfl

/-! ## Bracketing methods -/

theorem midpoint_eq (s : Bracket Float) : midpoint s = pure s.midpoint :=
  quotient_eq (by decide) _

theorem settle_of_refusal? {s : Bracket Float} {outcome : Outcome Float}
    (h : s.refusal? = some outcome) : settle outcome = pure outcome := by
  rcases Bracket.outcome_of_refusal? h with rfl | rfl | rfl <;> rfl

theorem bracket_eq (f : Evaluable Float) (a b : Option Float) :
    bracket f a b = ofStart (bracket? f a b) := by
  match a, b with
  | some a, some b =>
    rw [bracket, bracket?]
    split
    · rw [ofStart_startValue]
      refine bind_congr fun fa => ?_
      rw [ofStart_startValue]
      refine bind_congr fun fb => ?_
      dsimp only
      cases refused : Bracket.refusal? ⟨a, fa, b, fb⟩ with
      | none => rfl
      | some outcome =>
        change _ = Except.error <$> settle outcome
        rw [settle_of_refusal? refused, map_pure]
    · rfl
  | none, _ => rfl
  | some _, none => rfl

theorem diverging_bisectionTurn (k : Nat) (s : Bracket Float) :
    diverging k (bisectionTurn f tol k s) = ofTurn (Root.bisectionTurn f tol k s) := by
  rw [bisectionTurn, Root.bisectionTurn, midpoint_eq, pure_bind, diverging_call]
  cases f s.midpoint with
  | error cause => rfl
  | ok fx =>
    dsimp only
    rw [quotient_eq (by decide), pure_bind]
    split
    · rfl
    split
    · rfl
    split
    · rw [midpoint_eq]
      rfl
    · rfl

theorem bisection_eq (budget : Nat) (a b : Option Float) :
    bisection f tol budget a b = ofRun (Root.bisection f tol budget a b) := by
  rw [bisection, Root.bisection, bracket_eq]
  cases bracket? f a b with
  | error outcome => exact ofStart_error_bind (fun _ => rfl) outcome
  | ok s =>
    rw [ofStart, pure_bind]
    dsimp only
    split
    · exact pure_eq_ofRun_ended rfl
    split
    · exact pure_eq_ofRun_ended rfl
    split
    · rw [midpoint_eq, ofRun_ended]
      rfl
    · refine loop_eq diverging_bisectionTurn (fun s => ?_) budget 1 s
      rw [midpoint_eq]
      rfl

theorem chordPoint_eq {s : Bracket Float} (steep : ¬ IsTiny (s.fb - s.fa)) :
    chordPoint s = pure s.chordPoint :=
  quotient_eq (beq_zero_of_not_isTiny steep) _

theorem diverging_regulaFalsiTurn (k : Nat) (s : Bracket Float × Option Float) :
    diverging k (regulaFalsiTurn f tol k s) = ofTurn (Root.regulaFalsiTurn f tol k s) := by
  obtain ⟨s, before⟩ := s
  rw [regulaFalsiTurn, Root.regulaFalsiTurn]
  split
  · rw [ofTurn_stop]
    rfl
  rename_i steep
  rw [chordPoint_eq steep, pure_bind, diverging_call]
  dsimp only
  cases f s.chordPoint with
  | error cause => rfl
  | ok fx =>
    dsimp only
    split
    · rfl
    split
    · rfl
    split
    · rw [midpoint_eq]
      rfl
    · rfl

theorem regulaFalsi_eq (budget : Nat) (a b : Option Float) :
    regulaFalsi f tol budget a b = ofRun (Root.regulaFalsi f tol budget a b) := by
  rw [regulaFalsi, Root.regulaFalsi, bracket_eq]
  cases bracket? f a b with
  | error outcome => exact ofStart_error_bind (fun _ => rfl) outcome
  | ok s =>
    rw [ofStart, pure_bind]
    dsimp only
    split
    · rw [midpoint_eq, ofRun_ended]
      rfl
    split
    · exact pure_eq_ofRun_ended rfl
    split
    · exact pure_eq_ofRun_ended rfl
    · refine loop_eq diverging_regulaFalsiTurn (fun s => ?_) budget 1 (s, none)
      rfl

/-! ## Open methods -/

/-- A guess is recorded and tested before the first iteration. -/
theorem guess_eq {x fx : Float} {found : Prop} [Decidable found] {rest : Raising (Outcome Float)}
    {run : History Float} (runs : rest = ofRun run) :
    (do
      record ⟨0, x, fx, none, none, none⟩
      if IsRunaway x ∨ IsRunaway fx then return .diverged .runaway 0
      else if found then return .success x 0
      else rest : Raising (Outcome Float)) =
    ofRun (.after [⟨0, x, fx, none, none, none⟩] <|
      if IsRunaway x ∨ IsRunaway fx then .ended (.diverged .runaway 0)
      else if found then .ended (.success x 0)
      else run) := by
  rw [ofRun_after]
  refine bind_congr fun _ => ?_
  split
  · exact pure_eq_ofRun_ended rfl
  split
  · exact pure_eq_ofRun_ended rfl
  · exact runs

/-- So is every point after it, at the end of its iteration. -/
theorem diverging_recorded {r : Record Float} {x fx : Float} {found : Prop} [Decidable found]
    {s : σ} :
    diverging k (do
      record r
      if IsRunaway x ∨ IsRunaway fx then return .stop (.diverged .runaway k)
      else if found then return .stop (.success x k)
      else return .go s) =
    ofTurn ⟨some r,
      if IsRunaway x ∨ IsRunaway fx then .stop (.diverged .runaway k)
      else if found then .stop (.success x k)
      else .go s⟩ := by
  split
  · rfl
  split
  · rfl
  · rfl

theorem chord_eq (f : Evaluable Float) (x₀ x₁ : Option Float) :
    chord f x₀ x₁ = ofStart (chord? f x₀ x₁) := by
  match x₀, x₁ with
  | some x₀, some x₁ =>
    rw [chord, chord?]
    split
    · rfl
    · rw [ofStart_startValue]
      refine bind_congr fun f₀ => ?_
      rw [ofStart_startValue]
      refine bind_congr fun f₁ => ?_
      dsimp only
      split
      · rfl
      · rfl
  | none, _ => rfl
  | some _, none => rfl

theorem zero_eq {s : Chord Float} (steep : ¬ IsTiny (s.f₁ - s.f₀)) : zero s = pure s.zero := by
  rw [zero, quotient_eq (beq_zero_of_not_isTiny steep)]
  rfl

theorem diverging_secantTurn (k : Nat) (s : Chord Float) :
    diverging k (secantTurn f tol k s) = ofTurn (Root.secantTurn f tol k s) := by
  rw [secantTurn, Root.secantTurn]
  split
  · rw [ofTurn_stop]
    rfl
  rename_i steep
  rw [zero_eq steep, pure_bind, diverging_call]
  dsimp only
  cases f s.zero with
  | error cause => rfl
  | ok fx => exact diverging_recorded

theorem secant_eq (budget : Nat) (x₀ x₁ : Option Float) :
    secant f tol budget x₀ x₁ = ofRun (Root.secant f tol budget x₀ x₁) := by
  rw [secant, Root.secant, chord_eq]
  cases chord? f x₀ x₁ with
  | error outcome => exact ofStart_error_bind (fun _ => rfl) outcome
  | ok s =>
    rw [ofStart, pure_bind]
    dsimp only
    split
    · exact pure_eq_ofRun_ended rfl
    split
    · exact pure_eq_ofRun_ended rfl
    · refine loop_eq diverging_secantTurn (fun s => ?_) budget 1 s
      rfl

theorem slope_eq (f : Evaluable Float) (derivative : Option (Evaluable Float)) (x : Float) :
    slope f derivative x = call (slopeOf f derivative) x := by
  cases derivative with
  | some derivative => rfl
  | none =>
    -- The step is not zero even where the point is infinite or no number.
    have nonzero := quotient_eq (beq_zero_differenceStep x)
    simp only [slope, slopeOf, centralDifference, Root.centralDifference, call, nonzero]
    cases f (x + differenceStep x) with
    | error cause => rfl
    | ok right => cases f (x - differenceStep x) <;> rfl

theorem diverging_newtonTurn (k : Nat) (s : Float × Float) :
    diverging k (newtonTurn f derivative tol k s) =
      ofTurn (Root.newtonTurn f (slopeOf f derivative) tol k s) := by
  obtain ⟨x, fx⟩ := s
  rw [newtonTurn, Root.newtonTurn, slope_eq, diverging_atFirst]
  cases slopeOf f derivative x with
  | error cause => rfl
  | ok d =>
    dsimp only
    split
    · rw [ofTurn_stop]
      rfl
    rename_i level
    have steep : ¬ IsTiny d := fun tiny => level (.inr tiny)
    rw [quotient_eq (beq_zero_of_not_isTiny steep), pure_bind, diverging_call]
    cases f (x - fx / d) with
    | error cause => rfl
    | ok fy => exact diverging_recorded

theorem newton_eq (budget : Nat) (x : Option Float) :
    newton f derivative tol budget x =
      ofRun (Root.newton f (slopeOf f derivative) tol budget x) := by
  match x with
  | none => exact (ofRun_ended (.invalid .guessMissing)).symm
  | some x =>
    rw [newton, Root.newton, atStart_call]
    cases startValue .firstGuess f x with
    | error outcome => exact (ofRun_ended outcome).symm
    | ok fx =>
      refine guess_eq (loop_eq diverging_newtonTurn (fun s => ?_) budget 1 (x, fx))
      rfl

theorem diverging_fixedPointTurn (k : Nat) (x : Float) :
    diverging k (fixedPointTurn f image tol k x) =
      ofTurn (Root.fixedPointTurn f image tol k x) := by
  rw [fixedPointTurn, Root.fixedPointTurn, diverging_atFirst]
  cases image x with
  | error cause => rfl
  | ok y =>
    dsimp only
    rw [diverging_call]
    cases f y with
    | error cause => rfl
    | ok fy => exact diverging_recorded

theorem fixedPoint_eq (budget : Nat) (x : Option Float) :
    fixedPoint f image tol budget x = ofRun (Root.fixedPoint f image tol budget x) := by
  match x with
  | none => exact (ofRun_ended (.invalid .guessMissing)).symm
  | some x =>
    rw [fixedPoint, Root.fixedPoint, atStart_call]
    cases startValue .firstGuess f x with
    | error outcome => exact (ofRun_ended outcome).symm
    | ok fx =>
      refine guess_eq (loop_eq diverging_fixedPointTurn (fun x => ?_) budget 1 x)
      rfl

/-! ## Requests -/

/-- The report of a run has the records that its computation made. -/
theorem running_ofRun (m : Method) (withSteps : Bool) (history : History Float) :
    running m withSteps (ofRun history) =
      .ok (history.outcome.report m (if withSteps then some history.trace else none)) := by
  obtain ⟨trace, outcome⟩ := history
  match outcome with
  | .success .. | .diverged .. | .exhausted .. => rfl
  | .invalid fault => cases fault <;> rfl

/-- Whatever is wrong with a text, the request is refused for it. -/
theorem compiling_eq (text : Option String) (refusal : CompileError → Refusal)
    (next : Formula → Except Exception Report) :
    compiling text refusal next =
      match Formula.ofText? text with
      | .ok f => next f
      | .error cause => .ok (refused (refusal cause)) := by
  unfold compiling compile
  cases compiled : Formula.ofText? text with
  | ok f => rfl
  | error cause =>
    -- Every cause but one is an exception that is caught, and that one does not occur.
    cases cause with
    | unknownOperator name => exact absurd compiled (Formula.ofText?_ne_unknownOperator text)
    | _ => rfl

theorem solveNewton_eq (r : Request) (withSteps : Bool) (f : Formula) :
    solveNewton r withSteps f = .ok ((r.solveNewton f).report withSteps) := by
  rw [solveNewton, Request.solveNewton]
  dsimp only
  split
  · rw [newton_eq, running_ofRun]
    rfl
  · rw [compiling_eq]
    cases Formula.ofText? r.derivative with
    | error cause => rfl
    | ok d =>
      dsimp only
      rw [newton_eq, running_ofRun]
      rfl

theorem solveFixedPoint_eq (r : Request) (withSteps : Bool) (f : Formula) :
    solveFixedPoint r withSteps f = .ok ((r.solveFixedPoint f).report withSteps) := by
  rw [solveFixedPoint, Request.solveFixedPoint]
  split
  · rfl
  · rw [compiling_eq]
    cases Formula.ofText? r.phi with
    | error cause => rfl
    | ok phi =>
      dsimp only
      rw [fixedPoint_eq, running_ofRun]
      rfl

theorem solveWith_eq (r : Request) (withSteps : Bool) (f : Formula) (m : Method) :
    solveWith r withSteps f m = .ok ((r.solveWith f m).report withSteps) := by
  cases m with
  | bisection =>
    rw [solveWith, bisection_eq, running_ofRun]
    rfl
  | regulaFalsi =>
    rw [solveWith, regulaFalsi_eq, running_ofRun]
    rfl
  | secant =>
    rw [solveWith, secant_eq, running_ofRun]
    rfl
  | newton => exact solveNewton_eq r withSteps f
  | fixedPoint => exact solveFixedPoint_eq r withSteps f

/-- **Root finding never raises**: every request comes to its report, with or without a trace. -/
theorem solve_eq_ok (r : Request) (withSteps : Bool) :
    solve r withSteps = .ok ((Root.solve r).report withSteps) := by
  unfold solve Root.solve methodOf
  cases r.refusal? with
  | some cause => rfl
  | none =>
    dsimp only
    cases r.method with
    | none => rfl
    | some m =>
      dsimp only
      rw [compiling_eq]
      cases Formula.ofText? r.function with
      | error cause => rfl
      | ok f => exact solveWith_eq r withSteps f m

end EquationSolver.Root.Raising
