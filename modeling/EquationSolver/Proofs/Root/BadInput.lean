import EquationSolver.Proofs.Double.Order
import EquationSolver.Proofs.Double.Size
import EquationSolver.Proofs.Root.Start

/-!
# Bad input and divergence

A request is bad input if its method cannot start from what it gives: a point is missing, the points
do not fit together, or a value that the start needs does not exist. The slope at the first point
and the image of the first point are such values, although they are taken in the first iteration. A
value that does not exist later on is no fault of the request, and the run diverges.

## Main definitions

* `BadBracket`, `BadGuesses`, `BadGuess`: points from which a method cannot start
* `Request.BadInput`: a request whose method cannot start

## Main results

* `run_invalid_iff`: a run is refused at its start, or for its first point
* `badInput_told_apart`: which requests are bad input, and where others diverge for want of a value
-/

namespace EquationSolver.Root

variable {f second : Evaluable Float} {r : Request} {m : Method} {tol : Float}

/-- A function has no value at a point. -/
def Fails (f : Evaluable Float) (x : Float) : Prop := ∃ cause, f x = .error cause

/-- An end is missing, the left end is not below the right end, a value at an end does not exist or
is not finite, or nothing is too large and the product of the values is positive. -/
def BadBracket (f : Evaluable Float) : Option Float → Option Float → Prop
  | some a, some b => ¬ a < b ∨ Fails f a ∨ Fails f b ∨ ∃ fa fb, f a = .ok fa ∧ f b = .ok fb ∧
    (fa.isFinite = false ∨ fb.isFinite = false ∨
      ¬ IsRunaway a ∧ ¬ IsRunaway b ∧ ¬ IsRunaway fa ∧ ¬ IsRunaway fb ∧ 0 < fa * fb)
  | _, _ => True

/-- A guess is missing, the guesses count as equal, or a value at a guess does not exist. -/
def BadGuesses (f : Evaluable Float) : Option Float → Option Float → Prop
  | some x₀, some x₁ => IsTiny (x₀ - x₁) ∨ Fails f x₀ ∨ Fails f x₁
  | _, _ => True

/-- The guess is missing, its value does not exist, or nothing is too large, the value is away from
zero, and the second function has no value at the guess. -/
def BadGuess (f second : Evaluable Float) (Away : Float → Prop) : Option Float → Prop
  | none => True
  | some x => Fails f x ∨
    ∃ fx, f x = .ok fx ∧ ¬ IsRunaway x ∧ ¬ IsRunaway fx ∧ Away fx ∧ Fails second x

/-- A request whose method cannot start. The second function of the method of Newton is the slope,
and that of the fixed point method is compiled after the method was chosen. -/
def Request.BadInput (r : Request) (f : Formula) : Method → Prop
  | .bisection | .regulaFalsi => BadBracket f.eval r.a r.b
  | .secant => BadGuesses f.eval (r.initialGuess <|> r.a) (r.secondGuess <|> r.b)
  | .newton => ∃ slope, r.second f .newton = .ok slope ∧
    BadGuess f.eval slope (r.tolerance < modulus ·) r.initialGuess
  | .fixedPoint => isMissing r.phi = true ∨
    match Formula.ofText? r.phi with
    | .error _ => True
    | .ok phi => BadGuess f.eval phi.eval (¬ modulus · < r.tolerance) r.initialGuess

/-! ## Starts that are refused -/

theorem refusal?_invalid_iff {s : Bracket Float} :
    (∃ fault, s.refusal? = some (.invalid fault)) ↔
      s.fa.isFinite = false ∨ s.fb.isFinite = false ∨ ¬ IsRunaway s.a ∧ ¬ IsRunaway s.b ∧
        ¬ IsRunaway s.fa ∧ ¬ IsRunaway s.fb ∧ 0 < s.fa * s.fb := by
  change _ ↔ Scalar.isFinite s.fa = false ∨ Scalar.isFinite s.fb = false ∨ _
  rw [Bracket.refusal?]
  by_cases infinite : Scalar.isFinite s.fa = false ∨ Scalar.isFinite s.fb = false
  · rw [if_pos infinite]
    exact iff_of_true ⟨_, rfl⟩ (or_assoc.mp (.inl infinite))
  rw [if_neg infinite, ← or_assoc, or_iff_right infinite]
  by_cases large : s.IsOversized
  · rw [if_pos large]
    refine iff_of_false nofun ?_
    rintro ⟨left, right, leftValue, rightValue, -⟩
    rcases large with h | h | h | h
    exacts [left h, leftValue h, right h, rightValue h]
  · rw [if_neg large]
    simp only [Bracket.IsOversized, not_or] at large
    obtain ⟨left, leftValue, right, rightValue⟩ := large
    by_cases same : 0 < s.fa * s.fb
    · rw [if_pos same]
      exact iff_of_true ⟨_, rfl⟩ ⟨left, right, leftValue, rightValue, same⟩
    · rw [if_neg same]
      exact iff_of_false nofun fun h => same h.2.2.2.2

theorem badBracket_iff {s : Bracket Float} (order : s.a < s.b) (left : f s.a = .ok s.fa)
    (right : f s.b = .ok s.fb) :
    BadBracket f (some s.a) (some s.b) ↔ ∃ fault, s.refusal? = some (.invalid fault) := by
  rw [refusal?_invalid_iff]
  simp [BadBracket, Fails, order, left, right]

theorem bracket?_invalid_iff {a b : Option Float} :
    (∃ fault, bracket? f a b = .error (.invalid fault)) ↔ BadBracket f a b := by
  have start := bracket?_start f a b
  generalize bracket? f a b = e at start
  cases start with
  | missing h =>
    refine iff_of_true ⟨_, rfl⟩ ?_
    rcases h with rfl | rfl
    · trivial
    · cases a <;> trivial
  | order h => exact iff_of_true ⟨_, rfl⟩ (.inl h)
  | left _ h => exact iff_of_true ⟨_, rfl⟩ (.inr (.inl ⟨_, h⟩))
  | right _ _ h => exact iff_of_true ⟨_, rfl⟩ (.inr (.inr (.inl ⟨_, h⟩)))
  | refused order left right h =>
    rw [badBracket_iff order left right, h]
    simp
  | ok order left right h =>
    rw [badBracket_iff order left right, h]
    exact iff_of_false nofun nofun

theorem chord?_invalid_iff {x₀ x₁ : Option Float} :
    (∃ fault, chord? f x₀ x₁ = .error (.invalid fault)) ↔ BadGuesses f x₀ x₁ := by
  have start := chord?_start f x₀ x₁
  generalize chord? f x₀ x₁ = e at start
  cases start with
  | missing h =>
    refine iff_of_true ⟨_, rfl⟩ ?_
    rcases h with rfl | rfl
    · trivial
    · cases x₀ <;> trivial
  | equal h => exact iff_of_true ⟨_, rfl⟩ (.inl h)
  | first _ h => exact iff_of_true ⟨_, rfl⟩ (.inr (.inl ⟨_, h⟩))
  | second _ _ h => exact iff_of_true ⟨_, rfl⟩ (.inr (.inr ⟨_, h⟩))
  | oversized apart first second =>
    refine iff_of_false nofun ?_
    rintro (equal | ⟨cause, h⟩ | ⟨cause, h⟩)
    · exact apart equal
    · cases first.symm.trans h
    · cases second.symm.trans h
  | ok apart first second =>
    refine iff_of_false nofun ?_
    rintro (equal | ⟨cause, h⟩ | ⟨cause, h⟩)
    · exact apart equal
    · cases first.symm.trans h
    · cases second.symm.trans h

theorem badGuess_iff {Away : Float → Prop} {x fx : Float} (h : f x = .ok fx) :
    BadGuess f second Away (some x) ↔
      ¬ IsRunaway x ∧ ¬ IsRunaway fx ∧ Away fx ∧ Fails second x := by
  simp [BadGuess, Fails, h]

/-! ## Runs that are refused -/

theorem outcome_eq_invalid_iff {obstacle : Obstacle Float} {k : Nat} :
    (∃ fault, obstacle.outcome k = .invalid fault) ↔
      k = 1 ∧ ∃ value x cause, obstacle = .atStart value x cause := by
  cases obstacle with
  | levelChord | levelTangent | atPoint => exact iff_of_false nofun nofun
  | atStart value x cause =>
    by_cases first : k = 1
    · exact iff_of_true ⟨_, if_pos first⟩ ⟨first, value, x, cause, rfl⟩
    · refine iff_of_false ?_ fun h => first h.1
      rintro ⟨fault, h⟩
      cases (if_neg first).symm.trans h

variable {σ : Type} {M : Scheme σ Float}

theorem point_eq_atStart_iff {s : σ} {value : StartValue} {x : Float} {cause : EvalError} :
    M.point s = .error (.atStart value x cause) ↔ M.update s = .error (.atStart value x cause) := by
  rw [Scheme.point]
  cases M.update s with
  | error obstacle => simp
  | ok y => cases value : M.f y <;> simp [value]

theorem update_of_ends_invalid {budget : Nat} {start : σ} {steps : List (Record Float)}
    {fault : StartFault Float} (h : M.Ends tol budget start steps (.invalid fault)) :
    ∃ value x cause, M.update start = .error (.atStart value x cause) := by
  generalize invalid : Outcome.invalid fault = outcome at h
  -- Only an obstacle refuses, and only as the first thing that happens.
  cases h with
  | spent | runaway | found => cases invalid
  | stuck onward lt point =>
    obtain ⟨first, value, x, cause, rfl⟩ := outcome_eq_invalid_iff.mp ⟨fault, invalid.symm⟩
    rw [List.eq_nil_of_length_eq_zero (Nat.succ.inj first)] at point
    exact ⟨value, x, cause, point_eq_atStart_iff.mp point⟩

/-- The iterations of a run refuse it only for a value that the first of them starts from. -/
theorem iterate_invalid_iff {budget : Nat} (pos : 0 < budget) (start : σ) :
    (∃ fault, (iterate (M.turn tol) (fun s => .exhausted (M.estimate s) budget) budget 1
        start).outcome = .invalid fault) ↔
      ∃ value x cause, M.update start = .error (.atStart value x cause) := by
  constructor
  · have ends := M.ends_iterate tol budget start rfl
    rintro ⟨fault, refused⟩
    rw [refused] at ends
    exact update_of_ends_invalid ends
  · rintro ⟨value, x, cause, h⟩
    rw [Scheme.iterate_of_point_error Scheme.onward_nil pos (point_eq_atStart_iff.mpr h)]
    exact ⟨_, rfl⟩

/-- A run is refused at its start, or because a value that its first iteration starts from does not
exist. -/
theorem run_invalid_iff {budget : Nat} (pos : 0 < budget) :
    (∃ fault, ((r.process f second m).run tol budget).outcome = .invalid fault) ↔
      (∃ fault, (r.process f second m).entry tol = .error (.invalid fault)) ∨
        ∃ e, (r.process f second m).entry tol = .ok e ∧ e.early? = none ∧
          ∃ value x cause, (r.process f second m).scheme.update e.state =
            .error (.atStart value x cause) := by
  rw [Process.run]
  cases entry : (r.process f second m).entry tol with
  | error outcome => simp [Run.ended]
  | ok e =>
    simp only [reduceCtorEq, exists_false, false_or, Except.ok.injEq, exists_eq_left']
    rw [Process.runFrom]
    cases early : e.early? with
    | some outcome =>
      refine iff_of_false ?_ ?_
      · rintro ⟨fault, rfl⟩
        exact isEarly_of_entry entry _ early
      · rintro ⟨⟨⟩, -⟩
    | none =>
      rw [and_iff_right rfl]
      exact iterate_invalid_iff pos e.state

theorem map_invalid_iff {β γ : Type} {e : Except (Outcome Float) β} {g : β → γ} :
    (∃ fault, e.map g = .error (.invalid fault)) ↔ ∃ fault, e = .error (.invalid fault) := by
  cases e <;> simp [Except.map]

theorem guess_invalid_iff {keep : Float → Float → σ} {Found : Float → Prop}
    [DecidablePred Found] {guess : Option Float}
    (update : ∀ x fx, (∃ value y cause, M.update (keep x fx) = .error (.atStart value y cause)) ↔
      Fails second x) :
    ((∃ fault, guessEntry f keep Found guess = .error (.invalid fault)) ∨
      ∃ e, guessEntry f keep Found guess = .ok e ∧ e.early? = none ∧
        ∃ value x cause, M.update e.state = .error (.atStart value x cause)) ↔
      BadGuess f second (¬ Found ·) guess := by
  have start := guessEntry_start f keep Found guess
  generalize guessEntry f keep Found guess = e at start
  have started {e : Entry σ Float} {P : Entry σ Float → Prop} :
      ((∃ fault, (Except.ok e : Except (Outcome Float) _) = .error (.invalid fault)) ∨
        ∃ e', (Except.ok e : Except (Outcome Float) _) = .ok e' ∧ P e') ↔ P e := by simp
  cases start with
  | missing => exact iff_of_true (.inl ⟨_, rfl⟩) trivial
  | failed h => exact iff_of_true (.inl ⟨_, rfl⟩) (.inl ⟨_, h⟩)
  | runaway h large =>
    rw [started, badGuess_iff h]
    exact iff_of_false nofun fun bad => large.elim bad.1 bad.2.1
  | found h sized found =>
    rw [started, badGuess_iff h]
    exact iff_of_false nofun fun bad => bad.2.2.1 found
  | goesOn h sized far =>
    obtain ⟨point, value⟩ := not_or.mp sized
    rw [started, badGuess_iff h, and_iff_right rfl, update]
    exact ⟨fun bad => ⟨point, value, far, bad⟩, fun bad => bad.2.2.2⟩

/-! ## Requests -/

theorem badGuess_congr {Away Away' : Float → Prop} {guess : Option Float}
    (h : ∀ fx, ¬ IsRunaway fx → (Away fx ↔ Away' fx)) :
    BadGuess f second Away guess ↔ BadGuess f second Away' guess := by
  cases guess with
  | none => exact Iff.rfl
  | some x =>
    refine or_congr_right (exists_congr fun fx => and_congr_right fun _ => and_congr_right fun _ =>
      and_congr_right fun sized => and_congr_left fun _ => h fx sized)

theorem newton_update_atStart_iff {slope : Evaluable Float} (x fx : Float) :
    (∃ value y cause, (newtonScheme f slope).update (x, fx) = .error (.atStart value y cause)) ↔
      Fails slope x := by
  dsimp only [newtonScheme, Fails]
  cases slope x with
  | error cause => exact iff_of_true ⟨_, _, _, rfl⟩ ⟨cause, rfl⟩
  | ok d =>
    dsimp only
    refine iff_of_false ?_ nofun
    split <;> exact nofun

theorem fixedPoint_update_atStart_iff {image : Evaluable Float} (x : Float) :
    (∃ value y cause, (fixedPointScheme f image).update x = .error (.atStart value y cause)) ↔
      Fails image x := by
  dsimp only [fixedPointScheme, Fails]
  cases image x with
  | error cause => exact iff_of_true ⟨_, _, _, rfl⟩ ⟨cause, rfl⟩
  | ok y => exact iff_of_false nofun nofun

/-- The run of a method is refused exactly for bad input. -/
theorem run_invalid_iff_badInput {F : Formula} {budget : Nat} (pos : 0 < budget)
    (small : 0 < r.tolerance) (value : r.second F m = .ok second) :
    (∃ fault, ((r.process F.eval second m).run r.tolerance budget).outcome = .invalid fault) ↔
      r.BadInput F m := by
  rw [run_invalid_iff pos]
  cases m with
  | bisection =>
    rw [or_iff_left]
    · exact map_invalid_iff.trans bracket?_invalid_iff
    · rintro ⟨e, -, -, value, x, cause, h⟩
      cases h
  | regulaFalsi =>
    rw [or_iff_left]
    · exact map_invalid_iff.trans bracket?_invalid_iff
    · rintro ⟨e, -, -, value, x, cause, h⟩
      dsimp only [Request.process, regulaFalsiProcess, regulaFalsiScheme] at h
      split at h <;> cases h
  | secant =>
    rw [or_iff_left]
    · exact map_invalid_iff.trans chord?_invalid_iff
    · rintro ⟨e, -, -, value, x, cause, h⟩
      dsimp only [Request.process, secantProcess, secantScheme] at h
      split at h <;> cases h
  | newton =>
    refine (guess_invalid_iff newton_update_atStart_iff).trans ?_
    -- The test compares with `≤`; its failure is `<` because the value is a number.
    have away : BadGuess F.eval second (¬ modulus · ≤ r.tolerance) r.initialGuess ↔
        BadGuess F.eval second (r.tolerance < modulus ·) r.initialGuess := by
      refine badGuess_congr fun fx sized => ?_
      exact Double.not_le_iff (Double.finite_modulus (Double.not_isRunaway_iff.mp sized).1).1 small
    rw [away, Request.BadInput, value]
    simp
  | fixedPoint =>
    refine (guess_invalid_iff fun x _ => fixedPoint_update_atStart_iff x).trans ?_
    rw [Request.BadInput]
    dsimp only [Request.second] at value
    by_cases missing : isMissing r.phi = true
    · rw [if_pos missing] at value
      cases value
    rw [if_neg missing] at value
    rw [or_iff_right missing]
    cases compiled : Formula.ofText? r.phi with
    | error cause =>
      rw [compiled] at value
      cases value
    | ok phi =>
      rw [compiled] at value
      cases value
      exact Iff.rfl

/-- Why the value does not exist that an obstacle is about. -/
def Obstacle.cause? : Obstacle Float → Option EvalError
  | .atStart _ _ cause => some cause
  | .atPoint cause => some cause
  | _ => none

/-- A value that does not exist ends the run by divergence, unless the first iteration starts from
it. -/
theorem outcome_of_cause? {obstacle : Obstacle Float} {cause : EvalError} {k : Nat}
    (h : obstacle.cause? = some cause) (later : k ≠ 1 ∨ obstacle = .atPoint cause) :
    obstacle.outcome k = .diverged (.evaluation cause) k := by
  cases obstacle with
  | levelChord | levelTangent => cases h
  | atPoint => cases h; rfl
  | atStart value x =>
    cases h
    exact if_neg (later.resolve_right nofun)

theorem badInput_of_second_eq_error {F : Formula} {cause : Refusal}
    (derivative : m = .newton → isMissing r.derivative = false →
      ∃ d, Formula.ofText? r.derivative = .ok d)
    (h : r.second F m = .error cause) : r.BadInput F m := by
  cases m with
  | bisection | regulaFalsi | secant => cases h
  | newton =>
    dsimp only [Request.second] at h
    split at h
    · cases h
    · rename_i given
      obtain ⟨d, compiled⟩ := derivative rfl (Bool.eq_false_of_not_eq_true given)
      rw [compiled] at h
      cases h
  | fixedPoint =>
    dsimp only [Request.second] at h
    split at h
    · exact .inl ‹_›
    · refine .inr ?_
      cases compiled : Formula.ofText? r.phi with
      | error _ => trivial
      | ok phi =>
        rw [compiled] at h
        cases h

/-- **Bad input and divergence are told apart**: a request that can be looked at is refused exactly
if it is bad input, and every value that turns out later not to exist makes the run diverge in that
iteration. -/
theorem badInput_told_apart (r : Request) {m : Method} {F : Formula} (withSteps : Bool)
    (small : 0 < r.tolerance) (enough : 0 < r.maxIterations) (method : r.method = some m)
    (function : isMissing r.function = false) (compiled : Formula.ofText? r.function = .ok F)
    (derivative : m = .newton → isMissing r.derivative = false →
      ∃ d, Formula.ofText? r.derivative = .ok d) :
    (((solve r).report withSteps).status = .invalidInput ↔ r.BadInput F m) ∧
      ∀ second e steps obstacle cause, r.second F m = .ok second →
        (r.process F.eval second m).entry r.tolerance = .ok e → e.early? = none →
        (r.process F.eval second m).scheme.Onward r.tolerance 1 e.state steps →
        steps.length < r.budget →
        (r.process F.eval second m).scheme.point
          ((r.process F.eval second m).scheme.known e.state steps) = .error obstacle →
        obstacle.cause? = some cause → steps ≠ [] ∨ obstacle = .atPoint cause →
        ((solve r).report withSteps).status = .divergence ∧
          ((solve r).report withSteps).iterations = steps.length + 1 ∧
          ((solve r).report withSteps).message = m.title ++ ": " ++ cause.message := by
  have plan := Request.plan_of_known function small enough method compiled
  have pos : 0 < r.budget := Int.lt_toNat.mpr enough
  constructor
  · cases value : r.second F m with
    | ok second =>
      rw [value] at plan
      rw [report_of_plan_ok plan, ← run_invalid_iff_badInput pos small value]
      exact Outcome.status_report_eq_invalidInput_iff
    | error cause =>
      rw [value] at plan
      rw [report_of_plan_refused plan]
      exact iff_of_true rfl (badInput_of_second_eq_error derivative value)
  · intro second e steps obstacle cause value entry early onward lt point reason later
    rw [value] at plan
    have ran : (r.process F.eval second m).run r.tolerance r.budget =
        ⟨e.lead ++ steps, .diverged (.evaluation cause) (steps.length + 1)⟩ := by
      have later : steps.length + 1 ≠ 1 ∨ obstacle = .atPoint cause :=
        later.imp_left fun some first => some (List.eq_nil_of_length_eq_zero (Nat.succ.inj first))
      rw [Process.run, entry, ← outcome_of_cause? reason later]
      dsimp only
      rw [Process.runFrom, early]
      dsimp only
      rw [Scheme.iterate_of_point_error onward lt point]
      rfl
    rw [report_of_plan_ok plan, ran]
    exact ⟨rfl, rfl, rfl⟩

/-- The bracket around the pole. -/
def poleBracket : Bracket Float := ⟨-1, -1, 3, 1 / 3⟩

theorem bracket?_poleBracket : bracket? reciprocal.eval (some (-1)) (some 3) = .ok poleBracket := by
  have order : (-1 : Float) < 3 := by decide +kernel
  have left : reciprocal.eval (-1) = .ok (-1) := by decide +kernel
  have right : reciprocal.eval 3 = .ok (1 / 3) := by decide +kernel
  have fits : poleBracket.refusal? = none := Option.isNone_iff_eq_none.mp (by decide +kernel)
  rw [bracket?, if_pos order, startValue_of_ok _ left, startValue_of_ok _ right]
  dsimp only [bind, Except.bind]
  split
  · rename_i outcome refused
    cases fits.symm.trans refused
  · rfl

theorem entry_aroundPole :
    ((aroundPole 1 2).process reciprocal.eval reciprocal.eval .bisection).entry 1 =
      .ok ⟨poleBracket, [], none⟩ := by
  have ends : ¬ (poleBracket.fa == 0) = true ∧ ¬ (poleBracket.fb == 0) = true := by decide +kernel
  have wide : ¬ poleBracket.width ≤ 1 := by decide +kernel
  change (bracket? reciprocal.eval (some (-1)) (some 3)).map _ = _
  rw [bracket?_poleBracket]
  simp only [Except.map, if_neg ends.1, if_neg ends.2, if_neg wide]

/-- The first midpoint of the bracket around the pole. -/
def besidePole : Record Float := ⟨1, 1, 1, some (-1), some 3, some 2⟩

theorem onward_besidePole :
    (bisectionScheme reciprocal.eval).Onward 1 1 poleBracket [besidePole] := by
  have midpoint : poleBracket.midpoint = 1 := by decide +kernel
  have half : poleBracket.width / 2.0 = 2 := by decide +kernel
  have made : (bisectionScheme reciprocal.eval).Makes 1 poleBracket besidePole := by
    refine ⟨congrArg _ midpoint, by decide +kernel, ?_⟩
    change besidePole = ⟨1, 1, 1, some (-1), some 3, some (poleBracket.width / 2.0)⟩
    rw [half]
    rfl
  exact .cons made ⟨by decide +kernel, by decide +kernel⟩ Scheme.onward_nil

theorem point_besidePole : (bisectionScheme reciprocal.eval).point
    ((bisectionScheme reciprocal.eval).known poleBracket [besidePole]) =
      .error (.atPoint .divisionByZero) := by
  have kept : poleBracket.halve 1 1 = ⟨-1, -1, 1, 1⟩ := if_pos (by decide +kernel)
  have pole : reciprocal.eval (⟨-1, -1, 1, 1⟩ : Bracket Float).midpoint =
      .error .divisionByZero := by decide +kernel
  change (bisectionScheme reciprocal.eval).point (poleBracket.halve 1 1) = _
  rw [kept, Scheme.point]
  simp only [bisectionScheme, pole]

/-- Bisection around a pole is not bad input, and diverges in the iteration that meets the pole. -/
theorem badInput_told_apart_aroundPole :
    ¬ (aroundPole 1 2).BadInput reciprocal .bisection ∧
      ((solve (aroundPole 1 2)).report true).status = .divergence ∧
      ((solve (aroundPole 1 2)).report true).iterations = [besidePole].length + 1 ∧
      ((solve (aroundPole 1 2)).report true).message =
        Method.bisection.title ++ ": " ++ EvalError.divisionByZero.message := by
  obtain ⟨refused, later⟩ := badInput_told_apart (aroundPole 1 2) true (by decide +kernel)
    (by decide) rfl (by decide) compile_reciprocal nofun
  have diverged := later reciprocal.eval _ [besidePole] _ .divisionByZero rfl entry_aroundPole rfl
    onward_besidePole (by decide) point_besidePole rfl (.inr rfl)
  rw [← refused, diverged.1]
  exact ⟨nofun, rfl, diverged.2⟩

end EquationSolver.Root
