import EquationSolver.Proofs.Iteration
import EquationSolver.Root.Open
import EquationSolver.Scalar

/-!
# Methods as schemes

All methods of root finding share their loop. They differ in how they start, in the point they move
to, in their stopping test and in what they keep of the points they have seen. A scheme says these
things about a method, and its turn and its run are those of the method. What is shown of schemes
holds of every method.

## Main definitions

* `Scheme`: a method, apart from its start; `Scheme.turn` is one iteration of it
* `Scheme.known`: what the method knows after some recorded points
* `Scheme.Makes`, `Scheme.GoesOn`: what a record says, and that it does not end the run
* `Scheme.Onward`: records of which none ends the run
* `Process`: a scheme with a start; `Process.run` is its run with a tolerance and a budget

## Main results

* `Scheme.turn_outcome`: the four ways in which an iteration ends
* `Scheme.outcome_of_stops`: what an iteration stops with
* `Scheme.onward_of_passes`, `Scheme.Onward.passes`: the records of iterations that go on
* `Scheme.iterate_of_point_error`: a run ends where it reaches no point
* `Scheme.ends_iterate`: the four ways in which a run ends
-/

namespace EquationSolver.Root

variable {σ α : Type}

/-- Why an iteration reaches no point. -/
inductive Obstacle (α : Type) where
  /-- The chord that it follows is level. -/
  | levelChord
  /-- The tangent that it follows is level. -/
  | levelTangent
  /-- A value that it starts from does not exist. -/
  | atStart (value : StartValue) (x : α) (cause : EvalError)
  /-- The function has no value at the point that it moves to. -/
  | atPoint (cause : EvalError)

/-- How an obstacle ends the run in iteration `k`. -/
def Obstacle.outcome (k : Nat) : Obstacle α → Outcome α
  | levelChord => .diverged .levelChord k
  | levelTangent => .diverged .levelTangent k
  | atStart value x cause => failedStart k value x cause
  | atPoint cause => .diverged (.evaluation cause) k

/-- An obstacle makes the run diverge, or in the first iteration the method could not start. -/
theorem Obstacle.outcome_cases (obstacle : Obstacle α) (k : Nat) :
    (∃ cause, obstacle.outcome k = .diverged cause k) ∨
      k = 1 ∧ ∃ value x cause, obstacle.outcome k = .invalid (.unevaluable value x cause) := by
  cases obstacle with
  | levelChord | levelTangent | atPoint => exact .inl ⟨_, rfl⟩
  | atStart value x cause =>
    by_cases first : k = 1
    · exact .inr ⟨first, value, x, cause, if_pos first⟩
    · exact .inl ⟨_, if_neg first⟩

/-- A method, apart from its start. -/
structure Scheme (σ α : Type) where
  /-- The function whose root is looked for. -/
  f : Evaluable α
  /-- The point that an iteration moves to. -/
  update : σ → Except (Obstacle α) α
  /-- The ends of the bracket that is recorded. -/
  ends : σ → Option (α × α)
  /-- The estimate of the error that is recorded. -/
  error : σ → α → Option α
  /-- The stopping test for a tolerance, at a point with its value. -/
  Stops : α → σ → α → α → Prop
  /-- The root, if the test holds. -/
  root : α → σ → α → α → α
  /-- What the method keeps, if the test fails. -/
  next : σ → α → α → σ
  /-- The estimate, if the budget is spent. -/
  estimate : σ → α
  /-- The stopping test can be decided. -/
  decidableStops : ∀ tol s x fx, Decidable (Stops tol s x fx)

namespace Scheme

attribute [instance] decidableStops

variable (M : Scheme σ α)

/-- The point that an iteration moves to, with its value. -/
def point (s : σ) : Except (Obstacle α) (α × α) :=
  match M.update s with
  | .error obstacle => .error obstacle
  | .ok x =>
    match M.f x with
    | .error cause => .error (.atPoint cause)
    | .ok fx => .ok (x, fx)

/-- The record of iteration `k`. -/
def record (k : Nat) (s : σ) (x fx : α) : Record α :=
  ⟨k, x, fx, (M.ends s).map Prod.fst, (M.ends s).map Prod.snd, M.error s x⟩

/-- What the method knows after some recorded points. -/
def known (s : σ) (steps : List (Record α)) : σ := steps.foldl (fun s r => M.next s r.x r.fx) s

/-- Iteration `k` moves to the recorded point, has the recorded value there, and records the bracket
and the error of the method. -/
structure Makes (k : Nat) (s : σ) (r : Record α) : Prop where
  /-- The point is the update of what the method knows. -/
  update : M.update s = .ok r.x
  /-- The value is that of the function at the point. -/
  value : M.f r.x = .ok r.fx
  /-- The rest of the record belongs to this iteration. -/
  record : r = M.record k s r.x r.fx

theorem point_eq_ok_iff {s : σ} {x fx : α} :
    M.point s = .ok (x, fx) ↔ M.update s = .ok x ∧ M.f x = .ok fx := by
  rcases update : M.update s with obstacle | y
  · simp [point, update]
  rcases value : M.f y with cause | fy
  · simp only [point, update, value, reduceCtorEq, Except.ok.injEq, false_iff, not_and]
    rintro rfl
    simp [value]
  · simp only [point, update, value, Except.ok.injEq, Prod.mk.injEq]
    constructor
    · rintro ⟨rfl, rfl⟩
      exact ⟨rfl, value⟩
    · rintro ⟨rfl, value'⟩
      exact ⟨rfl, Except.ok.inj (value.symm.trans value')⟩

variable [Scalar α] [LT α] [OfScientific α]

/-- The recorded point has not diverged and does not pass the stopping test. -/
def GoesOn (tol : α) (s : σ) (r : Record α) : Prop :=
  ¬ (IsRunaway r.x ∨ IsRunaway r.fx) ∧ ¬ M.Stops tol s r.x r.fx

/-- Every record is made, from the `k`-th iteration on, from what the method knows after the records
before it, and none of them ends the run. -/
def Onward (tol : α) (k : Nat) (s : σ) (steps : List (Record α)) : Prop :=
  ∀ before r after, steps = before ++ r :: after →
    M.Makes (k + before.length) (M.known s before) r ∧ M.GoesOn tol (M.known s before) r

variable {M} {tol : α} {n k : Nat} {s s' : σ} {steps : List (Record α)}

theorem onward_nil : M.Onward tol k s [] := fun before r after split => by simp at split

theorem Onward.cons {r : Record α} (made : M.Makes k s r) (goesOn : M.GoesOn tol s r)
    (h : M.Onward tol (k + 1) (M.next s r.x r.fx) steps) : M.Onward tol k s (r :: steps) := by
  intro before r' after split
  cases before with
  | nil =>
    obtain ⟨rfl, -⟩ := List.cons_eq_cons.mp split
    exact ⟨made, goesOn⟩
  | cons b before =>
    obtain ⟨rfl, rest⟩ := List.cons_eq_cons.mp split
    rw [List.length_cons, ← Nat.succ_add_eq_add_succ]
    exact h before r' after rest

variable [DecidableLT α]

variable (M) in
/-- One iteration of the method. -/
def turn (tol : α) (k : Nat) (s : σ) : Turn σ (Record α) (Outcome α) :=
  match M.point s with
  | .error obstacle => ⟨none, .stop (obstacle.outcome k)⟩
  | .ok (x, fx) =>
    ⟨some (M.record k s x fx),
      if IsRunaway x ∨ IsRunaway fx then .stop (.diverged .runaway k)
      else if M.Stops tol s x fx then .stop (.success (M.root tol s x fx) k)
      else .go (M.next s x fx)⟩

theorem turn_of_error {obstacle : Obstacle α} (h : M.update s = .error obstacle) :
    M.turn tol k s = ⟨none, .stop (obstacle.outcome k)⟩ := by
  rw [turn, point, h]

theorem turn_of_ok {x : α} (h : M.update s = .ok x) :
    M.turn tol k s =
      match M.f x with
      | .error cause => ⟨none, .stop (.diverged (.evaluation cause) k)⟩
      | .ok fx =>
        ⟨some (M.record k s x fx),
          if IsRunaway x ∨ IsRunaway fx then .stop (.diverged .runaway k)
          else if M.Stops tol s x fx then .stop (.success (M.root tol s x fx) k)
          else .go (M.next s x fx)⟩ := by
  simp only [turn, point, h]
  cases M.f x with
  | error cause => rfl
  | ok fx => rfl

variable (M) in
/-- The ways in which an iteration ends. -/
inductive TurnOutcome (tol : α) (k : Nat) (s : σ) : Turn σ (Record α) (Outcome α) → Prop where
  /-- It reaches no point. -/
  | stuck {obstacle : Obstacle α} (h : M.point s = .error obstacle) :
    TurnOutcome tol k s ⟨none, .stop (obstacle.outcome k)⟩
  /-- Its point has diverged. -/
  | runaway {r : Record α} (made : M.Makes k s r) (large : IsRunaway r.x ∨ IsRunaway r.fx) :
    TurnOutcome tol k s ⟨some r, .stop (.diverged .runaway k)⟩
  /-- Its point passes the stopping test. -/
  | found {r : Record α} (made : M.Makes k s r) (sized : ¬ (IsRunaway r.x ∨ IsRunaway r.fx))
    (stops : M.Stops tol s r.x r.fx) :
    TurnOutcome tol k s ⟨some r, .stop (.success (M.root tol s r.x r.fx) k)⟩
  /-- It is followed by another one. -/
  | goesOn {r : Record α} (made : M.Makes k s r) (goesOn : M.GoesOn tol s r) :
    TurnOutcome tol k s ⟨some r, .go (M.next s r.x r.fx)⟩

/-- An iteration ends in one of these ways. -/
theorem turn_outcome (M : Scheme σ α) (tol : α) (k : Nat) (s : σ) :
    M.TurnOutcome tol k s (M.turn tol k s) := by
  unfold turn
  cases h : M.point s with
  | error obstacle => exact .stuck h
  | ok p =>
    obtain ⟨x, fx⟩ := p
    obtain ⟨update, value⟩ := (M.point_eq_ok_iff).mp h
    have made : M.Makes k s (M.record k s x fx) := ⟨update, value, rfl⟩
    dsimp only
    split
    · exact .runaway made ‹_›
    split
    · exact .found made ‹_› ‹_›
    · exact .goesOn made ⟨‹_›, ‹_›⟩

/-- An iteration stops with a root, by diverging, or, if it is the first one, for want of a value
that it starts from. -/
theorem outcome_of_stops {record : Option (Record α)} {outcome : Outcome α}
    (h : M.turn tol k s = ⟨record, .stop outcome⟩) :
    (∃ x, outcome = .success x k) ∨ (∃ cause, outcome = .diverged cause k) ∨
      k = 1 ∧ ∃ value x cause, outcome = .invalid (.unevaluable value x cause) := by
  have ended := M.turn_outcome tol k s
  rw [h] at ended
  cases ended with
  | @stuck obstacle => exact .inr (obstacle.outcome_cases k)
  | runaway => exact .inr (.inl ⟨_, rfl⟩)
  | found => exact .inl ⟨_, rfl⟩

/-- Iterations that go on make a record each, and these lead to what the method knows then. -/
theorem onward_of_passes (h : Passes (M.turn tol) n k s steps s') :
    steps.length = n ∧ M.known s steps = s' ∧ M.Onward tol k s steps := by
  induction h with
  | zero => exact ⟨rfl, rfl, onward_nil⟩
  | @succ n k s s' s'' r t go _ ih =>
    obtain ⟨length, known, onward⟩ := ih
    have outcome := M.turn_outcome tol k s
    rw [go] at outcome
    cases outcome with
    | goesOn made goesOn => exact ⟨congrArg Nat.succ length, known, onward.cons made goesOn⟩

theorem turn_of_goesOn {r : Record α} (made : M.Makes k s r) (goesOn : M.GoesOn tol s r) :
    M.turn tol k s = ⟨some r, .go (M.next s r.x r.fx)⟩ := by
  simp only [turn, M.point_eq_ok_iff.mpr ⟨made.update, made.value⟩, if_neg goesOn.1,
    if_neg goesOn.2, ← made.record]

/-- The iterations that make records that go on. -/
theorem Onward.passes (h : M.Onward tol k s steps) :
    Passes (M.turn tol) steps.length k s steps (M.known s steps) := by
  -- Each record is split off with nothing before it, and the rest with that record before it.
  induction steps generalizing k s with
  | nil => exact .zero
  | cons r steps ih =>
    obtain ⟨made, goesOn⟩ := h [] r steps rfl
    refine .succ (turn_of_goesOn made goesOn) (ih fun before r' after split => ?_)
    have later := h (r :: before) r' after (congrArg (r :: ·) split)
    rwa [List.length_cons, ← Nat.succ_add_eq_add_succ] at later

/-- A run whose records go on ends where no further point is reached. -/
theorem iterate_of_point_error {start : σ} {obstacle : Obstacle α} {budget : Nat}
    (onward : M.Onward tol 1 start steps) (lt : steps.length < budget)
    (h : M.point (M.known start steps) = .error obstacle) (spent : σ → Outcome α) :
    iterate (M.turn tol) spent budget 1 start =
      ⟨steps, obstacle.outcome (steps.length + 1)⟩ := by
  have stops : M.turn tol (1 + steps.length) (M.known start steps) =
      ⟨none, .stop (obstacle.outcome (steps.length + 1))⟩ := by
    rw [turn, h, Nat.add_comm]
  rw [onward.passes.iterate_stop stops spent lt, Option.toList_none, List.append_nil]

variable (M) in
/-- How a run ends that starts from a state with the first iteration, by the records it has made and
its outcome. -/
inductive Ends (tol : α) (budget : Nat) (start : σ) : List (Record α) → Outcome α → Prop where
  /-- No iteration stopped. -/
  | spent {steps : List (Record α)} (onward : M.Onward tol 1 start steps)
    (all : steps.length = budget) :
    Ends tol budget start steps (.exhausted (M.estimate (M.known start steps)) budget)
  /-- The last iteration reached no point. -/
  | stuck {steps : List (Record α)} {obstacle : Obstacle α} (onward : M.Onward tol 1 start steps)
    (lt : steps.length < budget) (h : M.point (M.known start steps) = .error obstacle) :
    Ends tol budget start steps (obstacle.outcome (steps.length + 1))
  /-- The last point has diverged. -/
  | runaway {steps : List (Record α)} {r : Record α} (onward : M.Onward tol 1 start steps)
    (lt : steps.length < budget) (made : M.Makes (steps.length + 1) (M.known start steps) r)
    (large : IsRunaway r.x ∨ IsRunaway r.fx) :
    Ends tol budget start (steps ++ [r]) (.diverged .runaway (steps.length + 1))
  /-- The last point passes the stopping test. -/
  | found {steps : List (Record α)} {r : Record α} (onward : M.Onward tol 1 start steps)
    (lt : steps.length < budget) (made : M.Makes (steps.length + 1) (M.known start steps) r)
    (sized : ¬ (IsRunaway r.x ∨ IsRunaway r.fx))
    (stops : M.Stops tol (M.known start steps) r.x r.fx) :
    Ends tol budget start (steps ++ [r])
      (.success (M.root tol (M.known start steps) r.x r.fx) (steps.length + 1))

/-- Every run ends in one of these ways. -/
theorem ends_iterate (M : Scheme σ α) (tol : α) (budget : Nat) (start : σ) {run : History α}
    (h : iterate (M.turn tol) (fun s => .exhausted (M.estimate s) budget) budget 1 start = run) :
    M.Ends tol budget start run.trace run.outcome := by
  subst h
  rcases iterate_cases (M.turn tol) budget 1 start with
    ⟨steps, s, passes⟩ | ⟨n, lt, steps, s, r, outcome, passes, last⟩
  · rw [passes.iterate_spent]
    obtain ⟨length, rfl, onward⟩ := onward_of_passes passes
    exact .spent onward length
  · rw [passes.iterate_stop last _ lt]
    obtain ⟨rfl, rfl, onward⟩ := onward_of_passes passes
    have ended := M.turn_outcome tol (1 + steps.length) (M.known start steps)
    rw [last, Nat.add_comm] at ended
    cases ended with
    | stuck h =>
      rw [Option.toList_none, List.append_nil]
      exact .stuck onward lt h
    | runaway made large => exact .runaway onward lt made large
    | found made sized stops => exact .found onward lt made sized stops

end Scheme

/-! ## Runs -/

/-- Where a method starts. -/
structure Entry (σ α : Type) where
  /-- What it knows. -/
  state : σ
  /-- What it has recorded. -/
  lead : List (Record α)
  /-- How it ends, if it needs no iteration. -/
  early? : Option (Outcome α)

/-- A method: how it starts, for a tolerance, and how it goes on. -/
structure Process (σ α : Type) where
  /-- How it goes on. -/
  scheme : Scheme σ α
  /-- Where it starts, or how it ends if it cannot start. -/
  entry : α → Except (Outcome α) (Entry σ α)

namespace Process

variable [Scalar α] [LT α] [OfScientific α] [DecidableLT α]

/-- The run of a method from where it starts. -/
def runFrom (P : Process σ α) (tol : α) (budget : Nat) (e : Entry σ α) : History α :=
  .after e.lead <|
    match e.early? with
    | some outcome => .ended outcome
    | none =>
      iterate (P.scheme.turn tol) (fun s => .exhausted (P.scheme.estimate s) budget) budget 1
        e.state

/-- The run of a method. -/
def run (P : Process σ α) (tol : α) (budget : Nat) : History α :=
  match P.entry tol with
  | .error outcome => .ended outcome
  | .ok e => P.runFrom tol budget e

end Process

end EquationSolver.Root
