import EquationSolver.Proofs.Formula.Compilation
import EquationSolver.Proofs.Root.Scheme
import EquationSolver.Root.Solve

/-!
# The five methods as processes

Each method is the run of a process: what it knows is a bracket, a chord or a point, and its scheme
says how it moves, when it stops and what it keeps. A request whose formulas can be used comes to
the run of one process, with the functions of the request.

## Main definitions

* `bisectionScheme`, `regulaFalsiScheme`, `secantScheme`, `newtonScheme`, `fixedPointScheme`
* `bisectionProcess`, `regulaFalsiProcess`, `secantProcess`, `newtonProcess`, `fixedPointProcess`
* `Request.plan`, `Request.process`: what is run for a request

## Main results

* `bisection_eq_run`, `regulaFalsi_eq_run`, `secant_eq_run`, `newton_eq_run`, `fixedPoint_eq_run`
* `verdict_solve`: a request comes to the run of its process, or no method runs
* `report_of_plan_ok`: the report of a request whose process runs
-/

namespace EquationSolver.Root

variable {σ α : Type} {f slope image : Evaluable α} {tol : α}

/-- Two stopping tests are one, whose root depends on which of them holds. -/
theorem stop_of_either {p q : Prop} [Decidable p] [Decidable q] {x y : α} {k : Nat} {s : σ} :
    (if p then .stop (.success x k) else if q then .stop (.success y k) else .go s) =
      (if p ∨ q then .stop (.success (if p then x else y) k) else .go s :
        Next σ (Outcome α)) := by
  by_cases hp : p
  · rw [if_pos hp, if_pos (.inl hp), if_pos hp]
  · simp only [hp, if_false, false_or]

/-! ## Bisection -/

section Bisection

variable [Add α] [Sub α] [Mul α] [Div α] [Zero α] [BEq α] [LT α] [LE α] [DecidableLT α]
  [DecidableLE α] [OfScientific α] [Scalar α]

/-- Bisection keeps a bracket and moves to its midpoint. -/
def bisectionScheme (f : Evaluable α) : Scheme (Bracket α) α where
  f := f
  update s := .ok s.midpoint
  ends s := some (s.a, s.b)
  error s _ := some (s.width / (2.0 : α))
  Stops tol s x fx := fx == 0 ∨ (s.halve x fx).width ≤ tol
  root _ s x fx := if fx == 0 then x else (s.halve x fx).midpoint
  next s x fx := s.halve x fx
  estimate s := s.midpoint
  decidableStops _ _ _ _ := inferInstanceAs (Decidable (_ ∨ _))

/-- Bisection starts from a bracket, unless one of its ends or its midpoint will do. -/
def bisectionProcess (f : Evaluable α) (a b : Option α) : Process (Bracket α) α where
  scheme := bisectionScheme f
  entry tol := (bracket? f a b).map fun s => ⟨s, [],
    if s.fa == 0 then some (.success s.a 0)
    else if s.fb == 0 then some (.success s.b 0)
    else if s.width ≤ tol then some (.success s.midpoint 0)
    else none⟩

theorem bisectionTurn_eq : bisectionTurn f tol = (bisectionScheme f).turn tol := by
  funext k s
  have update : (bisectionScheme f).update s = .ok s.midpoint := rfl
  rw [bisectionTurn, Scheme.turn_of_ok update]
  dsimp only [bisectionScheme]
  cases f s.midpoint with
  | error cause => rfl
  | ok fx =>
    dsimp only
    rw [stop_of_either]
    rfl

theorem bisection_eq_run (budget : Nat) (a b : Option α) :
    bisection f tol budget a b = (bisectionProcess f a b).run tol budget := by
  rw [bisection, bisectionTurn_eq, Process.run]
  dsimp only [bisectionProcess]
  cases bracket? f a b with
  | error outcome => rfl
  | ok s =>
    dsimp only [Except.map, Process.runFrom]
    split
    · rfl
    split
    · rfl
    split
    · rfl
    · rfl

end Bisection

/-! ## False position -/

section RegulaFalsi

variable [Add α] [Sub α] [Mul α] [Div α] [Zero α] [LT α] [DecidableLT α] [OfScientific α]
  [Scalar α]

/-- False position keeps a bracket and the point of its last cut, and moves to where the chord meets
the axis. -/
def regulaFalsiScheme (f : Evaluable α) : Scheme (Bracket α × Option α) α where
  f := f
  update s := if IsTiny (s.1.fb - s.1.fa) then .error .levelChord else .ok s.1.chordPoint
  ends s := some (s.1.a, s.1.b)
  error s x := s.2.map fun y => modulus (x - y)
  Stops tol s x fx := modulus fx < tol ∨ (s.1.cut x fx).width < tol
  root tol s x fx := if modulus fx < tol then x else (s.1.cut x fx).midpoint
  next s x fx := (s.1.cut x fx, some x)
  estimate s := s.2.getD s.1.a
  decidableStops _ _ _ _ := inferInstanceAs (Decidable (_ ∨ _))

/-- False position starts from a bracket, unless its midpoint or one of its ends will do. -/
def regulaFalsiProcess (f : Evaluable α) (a b : Option α) :
    Process (Bracket α × Option α) α where
  scheme := regulaFalsiScheme f
  entry tol := (bracket? f a b).map fun s => ⟨(s, none), [],
    if s.width < tol then some (.success s.midpoint 0)
    else if modulus s.fa < tol then some (.success s.a 0)
    else if modulus s.fb < tol then some (.success s.b 0)
    else none⟩

theorem regulaFalsiTurn_eq : regulaFalsiTurn f tol = (regulaFalsiScheme f).turn tol := by
  funext k ⟨s, before⟩
  rw [regulaFalsiTurn]
  split
  · rename_i level
    have update : (regulaFalsiScheme f).update (s, before) = .error .levelChord := if_pos level
    rw [Scheme.turn_of_error update]
    rfl
  · rename_i steep
    have update : (regulaFalsiScheme f).update (s, before) = .ok s.chordPoint := if_neg steep
    rw [Scheme.turn_of_ok update]
    dsimp only [regulaFalsiScheme]
    cases f s.chordPoint with
    | error cause => rfl
    | ok fx =>
      dsimp only
      rw [stop_of_either]
      rfl

theorem regulaFalsi_eq_run (budget : Nat) (a b : Option α) :
    regulaFalsi f tol budget a b = (regulaFalsiProcess f a b).run tol budget := by
  rw [regulaFalsi, regulaFalsiTurn_eq, Process.run]
  dsimp only [regulaFalsiProcess]
  cases bracket? f a b with
  | error outcome => rfl
  | ok s =>
    dsimp only [Except.map, Process.runFrom]
    split
    · rfl
    split
    · rfl
    split
    · rfl
    · rfl

end RegulaFalsi

/-! ## The secant method -/

section Secant

variable [Sub α] [Mul α] [Div α] [LT α] [DecidableLT α] [OfScientific α] [Scalar α]

/-- The secant method keeps a chord and moves to where it meets the axis. -/
def secantScheme (f : Evaluable α) : Scheme (Chord α) α where
  f := f
  update s := if IsTiny (s.f₁ - s.f₀) then .error .levelChord else .ok s.zero
  ends _ := none
  error s x := some (modulus (x - s.x₁))
  Stops tol s x fx := modulus fx < tol ∨ modulus (x - s.x₁) < tol
  root _ _ x _ := x
  next s x fx := ⟨s.x₁, s.f₁, x, fx⟩
  estimate s := s.x₁
  decidableStops _ _ _ _ := inferInstanceAs (Decidable (_ ∨ _))

/-- The secant method starts from the chord through two guesses, unless one of them will do. -/
def secantProcess (f : Evaluable α) (x₀ x₁ : Option α) : Process (Chord α) α where
  scheme := secantScheme f
  entry tol := (chord? f x₀ x₁).map fun s => ⟨s, [],
    if modulus s.f₀ < tol then some (.success s.x₀ 0)
    else if modulus s.f₁ < tol then some (.success s.x₁ 0)
    else none⟩

theorem secantTurn_eq : secantTurn f tol = (secantScheme f).turn tol := by
  funext k s
  rw [secantTurn]
  split
  · rename_i level
    have update : (secantScheme f).update s = .error .levelChord := if_pos level
    rw [Scheme.turn_of_error update]
    rfl
  · rename_i steep
    have update : (secantScheme f).update s = .ok s.zero := if_neg steep
    rw [Scheme.turn_of_ok update]
    dsimp only [secantScheme]
    cases f s.zero with
    | error cause => rfl
    | ok fx => rfl

theorem secant_eq_run (budget : Nat) (x₀ x₁ : Option α) :
    secant f tol budget x₀ x₁ = (secantProcess f x₀ x₁).run tol budget := by
  rw [secant, secantTurn_eq, Process.run]
  dsimp only [secantProcess]
  cases chord? f x₀ x₁ with
  | error outcome => rfl
  | ok s =>
    dsimp only [Except.map, Process.runFrom]
    split
    · rfl
    split
    · rfl
    · rfl

end Secant

/-! ## Methods from one guess -/

section Guess

variable [LT α] [DecidableLT α] [OfScientific α] [Scalar α]

/-- A guess with its value, which is recorded as iteration zero. -/
def guessEntry (f : Evaluable α) (keep : α → α → σ) (Found : α → Prop) [DecidablePred Found] :
    Option α → Except (Outcome α) (Entry σ α)
  | none => .error (.invalid .guessMissing)
  | some x => (startValue .firstGuess f x).map fun fx => ⟨keep x fx, [⟨0, x, fx, none, none, none⟩],
      if IsRunaway x ∨ IsRunaway fx then some (.diverged .runaway 0)
      else if Found fx then some (.success x 0)
      else none⟩

/-- A method that tests its guess and then iterates is the run from the entry of the guess. -/
theorem run_of_guessEntry (P : Process σ α) {keep : α → α → σ} {Found : α → Prop}
    [DecidablePred Found] {x : α} (entry : P.entry tol = guessEntry P.scheme.f keep Found (some x))
    (budget : Nat) :
    P.run tol budget =
      match startValue .firstGuess P.scheme.f x with
      | .error outcome => .ended outcome
      | .ok fx =>
        .after [⟨0, x, fx, none, none, none⟩] <|
          if IsRunaway x ∨ IsRunaway fx then .ended (.diverged .runaway 0)
          else if Found fx then .ended (.success x 0)
          else
            iterate (P.scheme.turn tol) (fun s => .exhausted (P.scheme.estimate s) budget) budget 1
              (keep x fx) := by
  rw [Process.run, entry]
  dsimp only [guessEntry]
  cases startValue .firstGuess P.scheme.f x with
  | error outcome => rfl
  | ok fx =>
    dsimp only [Except.map, Process.runFrom]
    by_cases large : IsRunaway x ∨ IsRunaway fx
    · simp only [if_pos large]
    by_cases found : Found fx
    · simp only [if_neg large, if_pos found]
    · simp only [if_neg large, if_neg found]

end Guess

section Newton

variable [Sub α] [Div α] [LT α] [LE α] [DecidableLT α] [DecidableLE α] [OfScientific α] [Scalar α]

/-- The method of Newton keeps a point with its value and moves along the tangent. -/
def newtonScheme (f slope : Evaluable α) : Scheme (α × α) α where
  f := f
  update s :=
    match slope s.1 with
    | .error cause => .error (.atStart .slope s.1 cause)
    | .ok d => if IsLevel d then .error .levelTangent else .ok (s.1 - s.2 / d)
  ends _ := none
  error s x := some (modulus (x - s.1))
  Stops tol s x fx := modulus fx ≤ tol ∨ modulus (x - s.1) ≤ tol
  root _ _ x _ := x
  next _ x fx := (x, fx)
  estimate s := s.1
  decidableStops _ _ _ _ := inferInstanceAs (Decidable (_ ∨ _))

/-- The method of Newton starts from a guess, unless it will do. -/
def newtonProcess (f slope : Evaluable α) (x : Option α) : Process (α × α) α where
  scheme := newtonScheme f slope
  entry tol := guessEntry f Prod.mk (modulus · ≤ tol) x

theorem newtonTurn_eq : newtonTurn f slope tol = (newtonScheme f slope).turn tol := by
  funext k ⟨x, fx⟩
  rw [newtonTurn]
  rcases value : slope x with cause | d
  · have update : (newtonScheme f slope).update (x, fx) = .error (.atStart .slope x cause) := by
      dsimp only [newtonScheme]
      rw [value]
    rw [Scheme.turn_of_error update]
    rfl
  have update : (newtonScheme f slope).update (x, fx) =
      if IsLevel d then .error .levelTangent else .ok (x - fx / d) := by
    dsimp only [newtonScheme]
    rw [value]
  dsimp only
  split
  · rename_i level
    rw [if_pos level] at update
    rw [Scheme.turn_of_error update]
    rfl
  · rename_i steep
    rw [if_neg steep] at update
    rw [Scheme.turn_of_ok update]
    dsimp only [newtonScheme]
    cases f (x - fx / d) with
    | error cause => rfl
    | ok fy => rfl

theorem newton_eq_run (budget : Nat) (x : Option α) :
    newton f slope tol budget x = (newtonProcess f slope x).run tol budget := by
  match x with
  | none => rfl
  | some x =>
    have entry : (newtonProcess f slope (some x)).entry tol =
        guessEntry f Prod.mk (modulus · ≤ tol) (some x) := rfl
    rw [newton, newtonTurn_eq, run_of_guessEntry _ entry]
    rfl

end Newton

section FixedPoint

variable [Sub α] [LT α] [DecidableLT α] [OfScientific α] [Scalar α]

/-- The fixed point method keeps a point and moves to its image. -/
def fixedPointScheme (f image : Evaluable α) : Scheme α α where
  f := f
  update x :=
    match image x with
    | .error cause => .error (.atStart .image x cause)
    | .ok y => .ok y
  ends _ := none
  error x y := some (modulus (y - x))
  Stops tol x y fy := modulus fy < tol ∨ modulus (y - x) < tol
  root _ _ y _ := y
  next _ y _ := y
  estimate x := x
  decidableStops _ _ _ _ := inferInstanceAs (Decidable (_ ∨ _))

/-- The fixed point method starts from a guess, unless it will do. -/
def fixedPointProcess (f image : Evaluable α) (x : Option α) : Process α α where
  scheme := fixedPointScheme f image
  entry tol := guessEntry f (fun x _ => x) (modulus · < tol) x

theorem fixedPointTurn_eq : fixedPointTurn f image tol = (fixedPointScheme f image).turn tol := by
  funext k x
  rw [fixedPointTurn]
  rcases value : image x with cause | y
  · have update : (fixedPointScheme f image).update x = .error (.atStart .image x cause) := by
      dsimp only [fixedPointScheme]
      rw [value]
    rw [Scheme.turn_of_error update]
    rfl
  · have update : (fixedPointScheme f image).update x = .ok y := by
      dsimp only [fixedPointScheme]
      rw [value]
    rw [Scheme.turn_of_ok update]
    dsimp only [fixedPointScheme]
    cases f y with
    | error cause => rfl
    | ok fy => rfl

theorem fixedPoint_eq_run (budget : Nat) (x : Option α) :
    fixedPoint f image tol budget x = (fixedPointProcess f image x).run tol budget := by
  match x with
  | none => rfl
  | some x =>
    have entry : (fixedPointProcess f image (some x)).entry tol =
        guessEntry f (fun x _ => x) (modulus · < tol) (some x) := rfl
    rw [fixedPoint, fixedPointTurn_eq, run_of_guessEntry _ entry]
    rfl

end FixedPoint

/-! ## Requests -/

/-- What a method knows between two iterations. -/
abbrev Method.State : Method → Type
  | .bisection => Bracket Float
  | .regulaFalsi => Bracket Float × Option Float
  | .secant => Chord Float
  | .newton => Float × Float
  | .fixedPoint => Float

namespace Request

/-- The function of the second formula of a request: the slope for the method of Newton, by the
central difference if there is no formula for it, and the image for the fixed point method. The
other methods have no second function. -/
def second (r : Request) (f : Formula) : Method → Except Refusal (Evaluable Float)
  | .newton =>
    if isMissing r.derivative then .ok (slopeOf f.eval none)
    else match Formula.ofText? r.derivative with
      | .error cause => .error (.badDerivative cause)
      | .ok d => .ok (slopeOf f.eval d.eval)
  | .fixedPoint =>
    if isMissing r.phi then .error .phiMissing
    else match Formula.ofText? r.phi with
      | .error cause => .error (.badPhi cause)
      | .ok phi => .ok phi.eval
  | _ => .ok f.eval

/-- The process of a method for a request, with its two functions. -/
def process (r : Request) (f second : Evaluable Float) : (m : Method) → Process m.State Float
  | .bisection => bisectionProcess f r.a r.b
  | .regulaFalsi => regulaFalsiProcess f r.a r.b
  | .secant => secantProcess f (r.initialGuess <|> r.a) (r.secondGuess <|> r.b)
  | .newton => newtonProcess f second r.initialGuess
  | .fixedPoint => fixedPointProcess f second r.initialGuess

/-- What is run for a request: a method with two functions. Otherwise it is refused, or it names no
method. -/
def plan (r : Request) : Except (Option Refusal) (Method × Formula × Evaluable Float) :=
  match r.refusal? with
  | some cause => .error (some cause)
  | none =>
    match r.method with
    | none => .error none
    | some m =>
      match Formula.ofText? r.function with
      | .error cause => .error (some (.badFunction cause))
      | .ok f =>
        match r.second f m with
        | .error cause => .error (some cause)
        | .ok second => .ok (m, f, second)

theorem plan_eq_ok_iff {r : Request} {m : Method} {f : Formula} {second : Evaluable Float} :
    r.plan = .ok (m, f, second) ↔
      r.refusal? = none ∧ r.method = some m ∧ Formula.ofText? r.function = .ok f ∧
        r.second f m = .ok second := by
  rw [plan]
  cases r.refusal? with
  | some cause => simp
  | none =>
    cases r.method with
    | none => simp
    | some m' =>
      cases Formula.ofText? r.function with
      | error cause => simp
      | ok f' =>
        dsimp only
        rcases value : r.second f' m' with cause | second'
        · simp only [reduceCtorEq, true_and, Option.some.injEq, Except.ok.injEq, false_iff]
          rintro ⟨rfl, rfl, h⟩
          cases value.symm.trans h
        · simp only [Except.ok.injEq, Prod.mk.injEq, true_and, Option.some.injEq]
          constructor
          · rintro ⟨rfl, rfl, rfl⟩
            exact ⟨rfl, rfl, value⟩
          · rintro ⟨rfl, rfl, h⟩
            exact ⟨rfl, rfl, Except.ok.inj (value.symm.trans h)⟩

/-- A request that can be looked at is refused by its method, or it comes to a run. -/
theorem plan_of_known {r : Request} {m : Method} {f : Formula}
    (function : isMissing r.function = false) (small : 0 < r.tolerance)
    (enough : 0 < r.maxIterations) (method : r.method = some m)
    (compiled : Formula.ofText? r.function = .ok f) :
    r.plan =
      match r.second f m with
      | .error cause => .error (some cause)
      | .ok second => .ok (m, f, second) := by
  have enough : ¬ r.maxIterations ≤ 0 := Int.not_le.mpr enough
  have fits : r.refusal? = none := by
    rw [refusal?, function, if_neg Bool.false_ne_true, if_neg (not_not_intro small),
      if_neg enough]
  cases value : r.second f m <;> simp [plan, fits, method, compiled, value]

end Request

theorem verdict_solveWith (r : Request) (f : Formula) (m : Method) :
    (r.solveWith f m).verdict =
      match r.second f m with
      | .error cause => .refused cause
      | .ok second => .ran m ((r.process f.eval second m).run r.tolerance r.budget) := by
  cases m with
  | bisection => exact congrArg _ (bisection_eq_run ..)
  | regulaFalsi => exact congrArg _ (regulaFalsi_eq_run ..)
  | secant => exact congrArg _ (secant_eq_run ..)
  | newton =>
    dsimp only [Request.solveWith, Request.solveNewton, Request.second]
    split
    · exact congrArg _ (newton_eq_run ..)
    cases Formula.ofText? r.derivative with
    | error cause => rfl
    | ok d => exact congrArg _ (newton_eq_run ..)
  | fixedPoint =>
    dsimp only [Request.solveWith, Request.solveFixedPoint, Request.second]
    split
    · rfl
    cases Formula.ofText? r.phi with
    | error cause => rfl
    | ok phi => exact congrArg _ (fixedPoint_eq_run ..)

/-- A request comes to the run of its process, unless it is refused or names no method. -/
theorem verdict_solve (r : Request) :
    (solve r).verdict =
      match r.plan with
      | .error (some cause) => .refused cause
      | .error none => .unknownMethod
      | .ok (m, f, second) =>
        .ran m ((r.process f.eval second m).run r.tolerance r.budget) := by
  rw [solve, Request.plan]
  cases r.refusal? with
  | some cause => rfl
  | none =>
    cases r.method with
    | none => rfl
    | some m =>
      dsimp only
      cases Formula.ofText? r.function with
      | error cause => rfl
      | ok f =>
        dsimp only
        rw [verdict_solveWith]
        cases r.second f m with
        | error cause => rfl
        | ok second => rfl

/-! ## Reports -/

/-- What a report has in common with those of other runs. -/
def Report.summary (report : Report) : Summary (Record Float) :=
  ⟨report.status, report.iterations, report.message, report.steps⟩

/-- The report of a run, with its trace if that is asked for. -/
def Method.report (m : Method) (history : History Float) (withSteps : Bool) : Report :=
  history.outcome.report m (if withSteps then some history.trace else none)

theorem report_of_plan_ok {r : Request} {m : Method} {f : Formula} {second : Evaluable Float}
    (h : r.plan = .ok (m, f, second)) (withSteps : Bool) :
    (solve r).report withSteps =
      m.report ((r.process f.eval second m).run r.tolerance r.budget) withSteps := by
  rw [Solution.report, verdict_solve, h]
  rfl

theorem report_of_plan_refused {r : Request} {cause : Refusal} (h : r.plan = .error (some cause))
    (withSteps : Bool) :
    (solve r).report withSteps = { status := .invalidInput, message := cause.message } := by
  rw [Solution.report, verdict_solve, h]

theorem report_of_plan_unknown {r : Request} (h : r.plan = .error none) (withSteps : Bool) :
    (solve r).report withSteps =
      { status := .notImplemented, message := "Unrecognized root-finding method." } := by
  rw [Solution.report, verdict_solve, h]

namespace Outcome

variable {outcome : Outcome Float} {m : Method} {trace : Option (List (Record Float))}

theorem status_report_eq_invalidInput_iff :
    (outcome.report m trace).status = .invalidInput ↔ ∃ fault, outcome = .invalid fault := by
  cases outcome with
  | success | diverged | exhausted => exact ⟨nofun, nofun⟩
  | invalid fault =>
    refine ⟨fun _ => ⟨fault, rfl⟩, fun _ => ?_⟩
    cases fault <;> rfl

theorem status_report_eq_success_iff :
    (outcome.report m trace).status = .success ↔ ∃ root k, outcome = .success root k := by
  cases outcome with
  | success root k => exact iff_of_true rfl ⟨root, k, rfl⟩
  | diverged | exhausted => exact iff_of_false nofun nofun
  | invalid fault => exact iff_of_false (by cases fault <;> exact nofun) nofun

theorem steps_report (valid : ∀ fault, outcome ≠ .invalid fault) :
    (outcome.report m trace).steps = trace := by
  cases outcome with
  | success | diverged | exhausted => rfl
  | invalid fault => exact absurd rfl (valid fault)

end Outcome

/-! ## A bracket around a pole -/

/-- The reciprocal, which changes its sign where it has no value. -/
def reciprocal : Formula :=
  ⟨"1/x", [⟨.number, "1", Literal.toFloat ⟨['1'], [], [], [], []⟩⟩, .ofVariable, .ofOperator .div]⟩

theorem compile_reciprocal : Formula.compile "1/x" = .ok reciprocal := by
  have tokens : tokenize "1/x" = .ok [⟨.number, "1", Literal.toFloat ⟨['1'], [], [], [], []⟩⟩,
      .ofOperator .div, .ofVariable] := by
    refine tokensFrom_of_nextToken (r := ['/', 'x']) rfl rfl ?_
    refine tokensFrom_of_nextToken (r := ['x']) rfl rfl ?_
    refine tokensFrom_of_nextToken (r := []) rfl rfl ?_
    rw [tokensFrom]
  exact compile_eq_ok_iff.mpr ⟨rfl, rfl, programOf_eq_ok_iff.mpr ⟨_, tokens, rfl, rfl⟩⟩

/-- Bisection of a bracket around the pole of the reciprocal. Its first midpoint is `1`, and its
second one is the pole. -/
def aroundPole (tol : Float) (budget : Int) : Request where
  function := some "1/x"
  method := some .bisection
  tolerance := tol
  maxIterations := budget
  a := some (-1)
  b := some 3

theorem plan_aroundPole {tol : Float} {budget : Int} (small : 0 < tol) (enough : 0 < budget) :
    (aroundPole tol budget).plan = .ok (.bisection, reciprocal, reciprocal.eval) := by
  have present : isMissing (some "1/x") = false := by decide
  have compiled : Formula.ofText? (aroundPole tol budget).function = .ok reciprocal :=
    compile_reciprocal
  exact Request.plan_of_known (r := aroundPole tol budget) present small enough rfl compiled

end EquationSolver.Root
