import EquationSolver.Proofs.Double.Size
import EquationSolver.Root.Solve

/-!
# The contract of root finding

Whatever a formula does, a run keeps to points that have not diverged: each point is tested before
it is kept, and the midpoint of two such points has not diverged either. What a run ends with is
therefore a number of limited size, found within the budget. The report says so field by field.

## Main definitions

* `Outcome.Fits`: an outcome has a point of limited size and came within a budget
* `Report.Contract`: what holds of every report

## Main results

* `fits_of_ran`: the outcome of every method fits its budget
* `report_contract`: every report keeps the contract
-/

namespace EquationSolver.Root

open Double

/-- The outcome came within the budget, and its point has not diverged. -/
def Outcome.Fits (budget : Nat) : Outcome Float → Prop
  | .success root k => ¬ IsRunaway root ∧ k ≤ budget
  | .diverged _ k => k ≤ budget
  | .exhausted last k => ¬ IsRunaway last ∧ k = budget
  | .invalid _ => True

variable {f slope image : Evaluable Float} {tol : Float} {budget k : Nat}

theorem failedStart_fits (hk : k ≤ budget) (value : StartValue) (x : Float) (cause : EvalError) :
    (failedStart k value x cause).Fits budget := by
  unfold failedStart
  split
  · trivial
  · exact hk

/-! ## The start of a method -/

variable {σ τ : Type}

/-- A method starts from a state with a property, or ends at once with an outcome that fits. -/
def Begins (budget : Nat) (P : σ → Prop) : Except (Outcome Float) σ → Prop
  | .error outcome => outcome.Fits budget
  | .ok s => P s

theorem Begins.bind {P : τ → Prop} {e : Except (Outcome Float) σ}
    {g : σ → Except (Outcome Float) τ} (he : Begins budget (fun _ => True) e)
    (hg : ∀ s, Begins budget P (g s)) : Begins budget P (e >>= g) := by
  match e with
  | .error _ => exact he
  | .ok s => exact hg s

theorem startValue_begins (value : StartValue) (f : Evaluable Float) (x : Float) (budget : Nat) :
    Begins budget (fun _ => True) (startValue value f x) := by
  unfold startValue
  split <;> trivial

/-! ## One iteration -/

/-- A point that has diverged ends the run, so that what comes after the test may count on it. -/
theorem keeps_of_tested {P : σ → Prop} (hk : k ≤ budget) {x fx : Float}
    {next : Next σ (Outcome Float)}
    (h : ¬ IsRunaway x → next.Keeps P (Outcome.Fits budget)) :
    Next.Keeps P (Outcome.Fits budget)
      (if IsRunaway x ∨ IsRunaway fx then .stop (.diverged .runaway k) else next) := by
  split
  · exact hk
  · rename_i tested
    exact h fun runaway => tested (.inl runaway)

/-! ## Bracketing methods -/

/-- Neither end of the bracket has diverged. -/
def Bracket.Bounded (s : Bracket Float) : Prop := ¬ IsRunaway s.a ∧ ¬ IsRunaway s.b

namespace Bracket.Bounded

variable {s : Bracket Float} {x : Float}

theorem midpoint (h : s.Bounded) : ¬ IsRunaway s.midpoint := not_isRunaway_midpoint h.1 h.2

theorem halve (h : s.Bounded) (hx : ¬ IsRunaway x) (fx : Float) : (s.halve x fx).Bounded := by
  unfold Bracket.halve
  split
  · exact ⟨h.1, hx⟩
  · exact ⟨hx, h.2⟩

theorem cut (h : s.Bounded) (hx : ¬ IsRunaway x) (fx : Float) : (s.cut x fx).Bounded := by
  unfold Bracket.cut
  split
  · exact ⟨hx, h.2⟩
  · exact ⟨h.1, hx⟩

end Bracket.Bounded

theorem bounded_of_refusal?_eq_none {s : Bracket Float} (h : s.refusal? = none) : s.Bounded := by
  unfold Bracket.refusal? at h
  split at h
  · cases h
  · split at h
    · cases h
    · rename_i sized
      exact ⟨fun left => sized (.inl left), fun right => sized (.inr (.inr (.inl right)))⟩

theorem fits_of_refusal?_eq_some {s : Bracket Float} {outcome : Outcome Float}
    (h : s.refusal? = some outcome) (budget : Nat) : outcome.Fits budget := by
  rcases Bracket.outcome_of_refusal? h with rfl | rfl | rfl
  · trivial
  · exact budget.zero_le
  · trivial

theorem bracket?_begins (f : Evaluable Float) (a b : Option Float) (budget : Nat) :
    Begins budget Bracket.Bounded (bracket? f a b) := by
  match a, b with
  | some a, some b =>
    rw [bracket?]
    split
    · refine (startValue_begins .leftEnd f a budget).bind fun fa => ?_
      refine (startValue_begins .rightEnd f b budget).bind fun fb => ?_
      dsimp only
      split
      · exact fits_of_refusal?_eq_some ‹_› budget
      · exact bounded_of_refusal?_eq_none ‹_›
    · trivial
  | none, _ => trivial
  | some _, none => trivial

theorem bisectionTurn_keeps {s : Bracket Float} (hk : k ≤ budget) (hs : s.Bounded) :
    (bisectionTurn f tol k s).next.Keeps Bracket.Bounded (Outcome.Fits budget) := by
  unfold bisectionTurn
  dsimp only
  split
  · exact hk
  · rename_i fx _
    refine keeps_of_tested hk fun hx => ?_
    split
    · exact ⟨hx, hk⟩
    · split
      · exact ⟨(hs.halve hx fx).midpoint, hk⟩
      · exact hs.halve hx fx

theorem bisection_fits (a b : Option Float) : (bisection f tol budget a b).outcome.Fits budget := by
  have begins := bracket?_begins f a b budget
  unfold bisection
  split
  · rename_i bracket
    rwa [bracket] at begins
  · rename_i s bracket
    rw [bracket] at begins
    split
    · exact ⟨begins.1, budget.zero_le⟩
    split
    · exact ⟨begins.2, budget.zero_le⟩
    split
    · exact ⟨begins.midpoint, budget.zero_le⟩
    · refine outcome_iterate _ _ (fun k s => bisectionTurn_keeps) ?_ budget 1 s
        (Nat.add_comm 1 budget) begins
      intro s hs
      exact ⟨hs.midpoint, rfl⟩

/-- The ends of the bracket and the point of the cut before have not diverged. -/
def CutBounded : Bracket Float × Option Float → Prop
  | (s, before) => s.Bounded ∧ ∀ x ∈ before, ¬ IsRunaway x

theorem regulaFalsiTurn_keeps {s : Bracket Float × Option Float} (hk : k ≤ budget)
    (hs : CutBounded s) :
    (regulaFalsiTurn f tol k s).next.Keeps CutBounded (Outcome.Fits budget) := by
  obtain ⟨s, before⟩ := s
  unfold regulaFalsiTurn
  dsimp only
  split
  · exact hk
  split
  · exact hk
  · rename_i fx _
    refine keeps_of_tested hk fun hx => ?_
    split
    · exact ⟨hx, hk⟩
    · split
      · exact ⟨(hs.1.cut hx fx).midpoint, hk⟩
      · refine ⟨hs.1.cut hx fx, fun y hy => ?_⟩
        cases hy
        exact hx

theorem regulaFalsi_fits (a b : Option Float) :
    (regulaFalsi f tol budget a b).outcome.Fits budget := by
  have begins := bracket?_begins f a b budget
  unfold regulaFalsi
  split
  · rename_i bracket
    rwa [bracket] at begins
  · rename_i s bracket
    rw [bracket] at begins
    split
    · exact ⟨begins.midpoint, budget.zero_le⟩
    split
    · exact ⟨begins.1, budget.zero_le⟩
    split
    · exact ⟨begins.2, budget.zero_le⟩
    · refine outcome_iterate _ _ (fun k s => regulaFalsiTurn_keeps) ?_ budget 1 (s, none)
        (Nat.add_comm 1 budget) ⟨begins, nofun⟩
      rintro ⟨s, before⟩ hs
      refine ⟨?_, rfl⟩
      -- Before the first cut the left end is the estimate.
      cases before with
      | none => exact hs.1.1
      | some x => exact hs.2 x rfl

/-! ## Open methods -/

theorem chord?_begins (f : Evaluable Float) (x₀ x₁ : Option Float) (budget : Nat) :
    Begins budget (fun s : Chord Float => ¬ s.IsOversized) (chord? f x₀ x₁) := by
  match x₀, x₁ with
  | some x₀, some x₁ =>
    rw [chord?]
    split
    · trivial
    · refine (startValue_begins .firstGuess f x₀ budget).bind fun f₀ => ?_
      refine (startValue_begins .secondGuess f x₁ budget).bind fun f₁ => ?_
      dsimp only
      split
      · exact budget.zero_le
      · assumption
  | none, _ => trivial
  | some _, none => trivial

theorem secantTurn_keeps {s : Chord Float} (hk : k ≤ budget) :
    (secantTurn f tol k s).next.Keeps (fun s => ¬ IsRunaway s.x₁) (Outcome.Fits budget) := by
  unfold secantTurn
  split
  · exact hk
  dsimp only
  split
  · exact hk
  · refine keeps_of_tested hk fun hx => ?_
    split
    · exact ⟨hx, hk⟩
    · exact hx

theorem secant_fits (x₀ x₁ : Option Float) : (secant f tol budget x₀ x₁).outcome.Fits budget := by
  have begins := chord?_begins f x₀ x₁ budget
  unfold secant
  split
  · rename_i chord
    rwa [chord] at begins
  · rename_i s chord
    rw [chord] at begins
    have first : ¬ IsRunaway s.x₀ := fun h => begins (.inl h)
    have second : ¬ IsRunaway s.x₁ := fun h => begins (.inr (.inr (.inl h)))
    split
    · exact ⟨first, budget.zero_le⟩
    split
    · exact ⟨second, budget.zero_le⟩
    · refine outcome_iterate _ _ (fun k s hk _ => secantTurn_keeps hk) ?_ budget 1 s
        (Nat.add_comm 1 budget) second
      intro s hs
      exact ⟨hs, rfl⟩

/-- A guess is tested before the first iteration. -/
theorem fits_of_guess {x fx : Float} {records : List (Record Float)} {found : Prop}
    [Decidable found] {run : History Float} (h : ¬ IsRunaway x → run.outcome.Fits budget) :
    (Run.after records (if IsRunaway x ∨ IsRunaway fx then .ended (.diverged .runaway 0)
      else if found then .ended (.success x 0) else run)).outcome.Fits budget := by
  change Outcome.Fits budget (Run.outcome (ite _ _ _))
  split
  · exact budget.zero_le
  rename_i tested
  have hx : ¬ IsRunaway x := fun runaway => tested (.inl runaway)
  split
  · exact ⟨hx, budget.zero_le⟩
  · exact h hx

theorem newtonTurn_keeps {s : Float × Float} (hk : k ≤ budget) :
    (newtonTurn f slope tol k s).next.Keeps (fun s => ¬ IsRunaway s.1) (Outcome.Fits budget) := by
  obtain ⟨x, fx⟩ := s
  unfold newtonTurn
  dsimp only
  split
  · exact failedStart_fits hk ..
  split
  · exact hk
  split
  · exact hk
  · refine keeps_of_tested hk fun hx => ?_
    split
    · exact ⟨hx, hk⟩
    · exact hx

theorem newton_fits (x : Option Float) : (newton f slope tol budget x).outcome.Fits budget := by
  match x with
  | none => trivial
  | some x =>
    have begins := startValue_begins .firstGuess f x budget
    unfold newton
    dsimp only
    split
    · rename_i value
      rwa [value] at begins
    · refine fits_of_guess fun hx => ?_
      refine outcome_iterate _ _ (fun k s hk _ => newtonTurn_keeps hk) ?_ budget 1 _
        (Nat.add_comm 1 budget) hx
      intro s hs
      exact ⟨hs, rfl⟩

theorem fixedPointTurn_keeps {x : Float} (hk : k ≤ budget) :
    (fixedPointTurn f image tol k x).next.Keeps (fun x => ¬ IsRunaway x) (Outcome.Fits budget) := by
  unfold fixedPointTurn
  split
  · exact failedStart_fits hk ..
  split
  · exact hk
  · refine keeps_of_tested hk fun hx => ?_
    split
    · exact ⟨hx, hk⟩
    · exact hx

theorem fixedPoint_fits (x : Option Float) :
    (fixedPoint f image tol budget x).outcome.Fits budget := by
  match x with
  | none => trivial
  | some x =>
    have begins := startValue_begins .firstGuess f x budget
    unfold fixedPoint
    dsimp only
    split
    · rename_i value
      rwa [value] at begins
    · refine fits_of_guess fun hx => ?_
      refine outcome_iterate _ _ (fun k s hk _ => fixedPointTurn_keeps hk) ?_ budget 1 _
        (Nat.add_comm 1 budget) hx
      intro s hs
      exact ⟨hs, rfl⟩

/-! ## Requests -/

/-- Every method that ran kept to the budget of its request. -/
theorem fits_of_ran {r : Request} {f : Formula} {m m' : Method} {history : History Float}
    (h : (r.solveWith f m).verdict = .ran m' history) : history.outcome.Fits r.budget := by
  cases m with
  | bisection =>
    cases h
    exact bisection_fits ..
  | regulaFalsi =>
    cases h
    exact regulaFalsi_fits ..
  | secant =>
    cases h
    exact secant_fits ..
  | newton =>
    rw [Request.solveWith, Request.solveNewton] at h
    split at h
    · cases h
      exact newton_fits ..
    · split at h
      · cases h
      · cases h
        exact newton_fits ..
  | fixedPoint =>
    rw [Request.solveWith, Request.solveFixedPoint] at h
    split at h
    · cases h
    · split at h
      · cases h
      · cases h
        exact fixedPoint_fits ..

/-- A method only runs with a budget above zero, and keeps to it. -/
theorem budget_of_ran {r : Request} {m : Method} {history : History Float}
    (h : (solve r).verdict = .ran m history) :
    (r.budget : Int) = r.maxIterations ∧ history.outcome.Fits r.budget := by
  unfold solve at h
  split at h
  · cases h
  rename_i accepted
  have positive : ¬ r.maxIterations ≤ 0 := by
    intro none
    unfold Request.refusal? at accepted
    rw [if_pos none] at accepted
    split at accepted
    · cases accepted
    · split at accepted <;> cases accepted
  refine ⟨Int.toNat_of_nonneg (Int.not_le.mp positive).le, ?_⟩
  split at h
  · cases h
  split at h
  · cases h
  · exact fits_of_ran h

/-! ## Reports -/

/-- What holds of every report on a request with a given budget. -/
structure Report.Contract (maxIterations : Int) (report : Report) : Prop where
  /-- Root finding ends in one of five ways. -/
  status : report.status ∈
    [Status.success, .divergence, .maxIterationsReached, .invalidInput, .notImplemented]
  /-- There is a root exactly on success. -/
  root : report.root.isSome ↔ report.status = .success
  /-- There is a last estimate exactly when the budget was spent. -/
  lastEstimate : report.lastEstimate.isSome ↔ report.status = .maxIterationsReached
  /-- There is a message exactly when something went wrong. -/
  message : report.message = "" ↔ report.status = .success
  /-- What was found is a finite number of limited size. -/
  bounded : ∀ x, report.root = some x ∨ report.lastEstimate = some x →
    x.isFinite = true ∧ modulus x ≤ 1e12
  /-- A request that was refused took no iterations. -/
  refused : report.status = .invalidInput ∨ report.status = .notImplemented →
    report.iterations = 0
  /-- A spent budget was spent in full. -/
  spent : report.status = .maxIterationsReached → (report.iterations : Int) = maxIterations
  /-- No run took more iterations than its budget. -/
  iterations : report.status = .success ∨ report.status = .divergence →
    (report.iterations : Int) ≤ maxIterations

theorem append_ne_empty {s : String} (h : s ≠ "") (t : String) : s ++ t ≠ "" :=
  fun empty => h (String.append_eq_empty_iff.mp empty).1

theorem Refusal.message_ne_empty (cause : Refusal) : cause.message ≠ "" := by
  match cause with
  | .functionMissing | .tolerance | .budget | .phiMissing => decide
  | .badFunction _ | .badPhi _ | .badDerivative _ => exact append_ne_empty (by decide) _

theorem StartFault.message_ne_empty (m : Method) (fault : StartFault Float) :
    fault.message m ≠ "" := by
  match fault with
  | .bracketMissing | .bracketOrder | .endpointsNotFinite | .sameSign | .guessesMissing
  | .guessesEqual | .guessMissing => cases m <;> decide
  | .unevaluable value x cause =>
    have label : value.label ≠ "" := by cases value <;> decide
    exact append_ne_empty (append_ne_empty (append_ne_empty (append_ne_empty label _) _) _) _

theorem Divergence.message_ne_empty (m : Method) (cause : Divergence) : cause.message m ≠ "" := by
  match cause with
  | .endpointsTooLarge | .guessesTooLarge | .runaway | .levelChord | .levelTangent =>
    cases m <;> decide
  | .evaluation cause =>
    have title : m.title ≠ "" := by cases m <;> decide
    exact append_ne_empty (append_ne_empty title _) _

theorem le_of_not_isRunaway {x : Float} (h : ¬ IsRunaway x) :
    x.isFinite = true ∧ modulus x ≤ 1e12 := by
  obtain ⟨finite, size⟩ := not_isRunaway_iff.mp h
  obtain ⟨finite', number_modulus⟩ := finite_modulus finite
  refine ⟨finite, ?_⟩
  rw [le_iff finite' (by decide), number_modulus, number_1e12]
  exact size

theorem contract_of_refused {status : Status}
    (h : status = .invalidInput ∨ status = .notImplemented) {message : String}
    (nonempty : message ≠ "") (steps : Option (List (Record Float))) (maxIterations : Int) :
    Report.Contract maxIterations { status, message, steps } := by
  rcases h with rfl | rfl <;> constructor <;> simp [nonempty]

/-- The report of an outcome that fits keeps the contract. -/
theorem Outcome.Fits.contract {outcome : Outcome Float} (h : outcome.Fits budget) (m : Method)
    (steps : Option (List (Record Float))) : (outcome.report m steps).Contract budget := by
  match outcome, h with
  | .success root k, ⟨hx, hk⟩ =>
    exact {
      status := .head _
      root := iff_of_true rfl rfl
      lastEstimate := iff_of_false nofun nofun
      message := iff_of_true rfl rfl
      bounded := by
        rintro x (found | found)
        · cases found
          exact le_of_not_isRunaway hx
        · cases found
      refused := nofun
      spent := nofun
      iterations := fun _ => Int.ofNat_le.mpr hk }
  | .diverged cause k, hk =>
    exact {
      status := .tail _ (.head _)
      root := iff_of_false nofun nofun
      lastEstimate := iff_of_false nofun nofun
      message := iff_of_false (cause.message_ne_empty m) nofun
      bounded := nofun
      refused := nofun
      spent := nofun
      iterations := fun _ => Int.ofNat_le.mpr hk }
  | .exhausted last k, ⟨hx, hk⟩ =>
    exact {
      status := .tail _ (.tail _ (.head _))
      root := iff_of_false nofun nofun
      lastEstimate := iff_of_true rfl rfl
      message := iff_of_false (append_ne_empty (by decide) _) nofun
      bounded := by
        rintro x (found | found)
        · cases found
        · cases found
          exact le_of_not_isRunaway hx
      refused := nofun
      spent := fun _ => congrArg Int.ofNat hk
      iterations := nofun }
  | .invalid fault, _ =>
    have refused := contract_of_refused (.inl rfl) (fault.message_ne_empty m)
    -- Only a fault of a first value comes with a trace.
    match fault with
    | .unevaluable .. => exact refused _ _
    | .bracketMissing | .bracketOrder | .endpointsNotFinite | .sameSign | .guessesMissing
    | .guessesEqual | .guessMissing => exact refused _ _

/-- **The contract of root finding.** -/
theorem report_contract (r : Request) (withSteps : Bool) :
    ((solve r).report withSteps).Contract r.maxIterations := by
  unfold Solution.report
  split
  · exact contract_of_refused (.inl rfl) (Refusal.message_ne_empty _) _ _
  · exact contract_of_refused (.inr rfl) (by decide) _ _
  · rename_i ran
    obtain ⟨budget, fits⟩ := budget_of_ran ran
    rw [← budget]
    exact fits.contract ..

end EquationSolver.Root
