import EquationSolver.Iteration
import EquationSolver.Status

/-!
# Runs by their iterations

What a run does on the way does not depend on its budget: it takes iterations that go on, up to one
that stops or to the end of the budget. A run is read off from the iterations it has passed, so that
runs with two budgets, or with two stopping tests, can be compared where they part.

## Main definitions

* `Passes`: a number of iterations lead from one state to another, with the records they make
* `Turn.Shortens`: a turn does the same as another, or stops after the same record
* `Summary`: what the reports of all runs have in common

## Main results

* `iterate_cases`: a run passes its whole budget, or it stops in an iteration before
* `Passes.iterate`, `Passes.iterate_stop`: what a run comes to that has passed some iterations
* `outcome_iterate_from`: what every iteration from one on stops with, a run from there ends with
* `iterate_shortens`: a run whose turns stop earlier ends within the other run
-/

namespace EquationSolver

variable {State Record Outcome : Type} {turn turn' : Nat → State → Turn State Record Outcome}
  {spent : State → Outcome} {n m k : Nat} {s s' : State} {t : List Record} {r : Option Record}
  {outcome : Outcome}

/-- The `n` iterations from the `k`-th on lead from one state to another. None of them stops, and
together they make the records. -/
inductive Passes (turn : Nat → State → Turn State Record Outcome) :
    Nat → Nat → State → List Record → State → Prop where
  | zero {k : Nat} {s : State} : Passes turn 0 k s [] s
  | succ {n k : Nat} {s s' s'' : State} {r : Option Record} {t : List Record} :
      turn k s = ⟨r, .go s'⟩ → Passes turn n (k + 1) s' t s'' →
      Passes turn (n + 1) k s (r.toList ++ t) s''

namespace Passes

/-- A run that has passed some iterations goes on from where they lead. -/
theorem iterate (h : Passes turn n k s t s') (spent : State → Outcome) (budget : Nat) :
    iterate turn spent (n + budget) k s = (iterate turn spent budget (k + n) s').after t := by
  induction h with
  | zero => rw [Nat.zero_add, Nat.add_zero, Run.after, List.nil_append]
  | @succ n k _ _ _ r t go _ ih =>
    rw [Nat.succ_add, iterate_go _ _ go, ih, Nat.succ_add_eq_add_succ]
    simp only [Run.after, List.append_assoc]

/-- A run ends with the first iteration that stops. -/
theorem iterate_stop (h : Passes turn n k s t s') (stops : turn (k + n) s' = ⟨r, .stop outcome⟩)
    (spent : State → Outcome) {budget : Nat} (lt : n < budget) :
    EquationSolver.iterate turn spent budget k s = ⟨t ++ r.toList, outcome⟩ := by
  obtain ⟨rest, rfl⟩ := Nat.exists_eq_add_of_lt lt
  rw [Nat.add_assoc, h.iterate, EquationSolver.iterate_stop _ _ stops]
  rfl

/-- A run that has passed its whole budget has spent it. -/
theorem iterate_spent (h : Passes turn n k s t s') (spent : State → Outcome) :
    EquationSolver.iterate turn spent n k s = ⟨t, spent s'⟩ := by
  have run := h.iterate spent 0
  rw [Nat.add_zero, iterate_zero] at run
  rw [run, Run.after, Run.ended, List.append_nil]

/-- Iterations can be followed by one more that goes on. -/
theorem snoc {s'' : State} (h : Passes turn n k s t s') (go : turn (k + n) s' = ⟨r, .go s''⟩) :
    Passes turn (n + 1) k s (t ++ r.toList) s'' := by
  induction h with
  | zero => simpa using Passes.succ go .zero
  | @succ n k _ _ _ r' t go' _ ih =>
    rw [List.append_assoc]
    exact .succ go' (ih (by rwa [Nat.succ_add_eq_add_succ]))

end Passes

/-- A run passes its whole budget, or one of its iterations stops. -/
theorem iterate_cases (turn : Nat → State → Turn State Record Outcome) (budget k : Nat)
    (s : State) :
    (∃ t s', Passes turn budget k s t s') ∨
      ∃ n < budget, ∃ t s' r outcome, Passes turn n k s t s' ∧
        turn (k + n) s' = ⟨r, .stop outcome⟩ := by
  induction budget generalizing k s with
  | zero => exact .inl ⟨[], s, .zero⟩
  | succ budget ih =>
    rcases h : turn k s with ⟨r, s' | outcome⟩
    · rcases ih (k + 1) s' with ⟨t, s'', passes⟩ | ⟨n, lt, t, s'', r', outcome, passes, stops⟩
      · exact .inl ⟨_, s'', .succ h passes⟩
      · refine .inr ⟨n + 1, Nat.succ_lt_succ lt, _, s'', r', outcome, .succ h passes, ?_⟩
        rwa [← Nat.succ_add_eq_add_succ]
    · exact .inr ⟨0, Nat.succ_pos budget, [], s, r, outcome, .zero, h⟩

/-- What every iteration from the `k`-th on stops with, a run from there ends with, if it holds of a
spent budget too. -/
theorem outcome_iterate_from {Q : Outcome → Prop}
    (stops : ∀ j s r outcome, k ≤ j → turn j s = ⟨r, .stop outcome⟩ → Q outcome)
    (exhausted : ∀ s, Q (spent s)) (budget : Nat) (s : State) :
    Q (iterate turn spent budget k s).outcome := by
  rcases iterate_cases turn budget k s with ⟨t, s', passes⟩ | ⟨n, lt, t, s', r, outcome, passes, h⟩
  · rw [passes.iterate_spent]
    exact exhausted s'
  · rw [passes.iterate_stop h spent lt]
    exact stops (k + n) s' r outcome (Nat.le_add_right k n) h

/-- What the reports of all runs have in common. -/
structure Summary (Record : Type) where
  /-- How the run ended. -/
  status : Status
  /-- The iterations that were taken. -/
  iterations : Nat
  /-- What went wrong; empty on success. -/
  message : String
  /-- The trace, if it was asked for. -/
  steps : Option (List Record)

/-- A trace that is reported is the beginning of another one that is reported too. -/
theorem prefix_of_reported {t t' : List Record} (h : t <+: t') (withSteps : Bool) :
    Option.Rel (· <+: ·) (if withSteps then some t else none)
      (if withSteps then some t' else none) := by
  cases withSteps with
  | false => exact .none
  | true => exact .some h

/-! ## Turns that stop earlier -/

/-- A turn does what another does, or it makes the same record and stops with an outcome of a given
kind. -/
def Turn.Shortens (Q : Outcome → Prop) (turn turn' : Turn State Record Outcome) : Prop :=
  turn' = turn ∨ ∃ outcome, turn' = ⟨turn.record?, .stop outcome⟩ ∧ Q outcome

/-- A run whose turns stop earlier is the same, or it ends in an iteration that the other run
reaches, with the records up to there. -/
theorem iterate_shortens {Q : Nat → Outcome → Prop}
    (shortens : ∀ k s, (turn k s).Shortens (Q k) (turn' k s)) (spent : State → Outcome)
    (budget k : Nat) (s : State) :
    iterate turn' spent budget k s = iterate turn spent budget k s ∨
      ∃ j rest s', Q j (iterate turn' spent budget k s).outcome ∧
        (iterate turn spent budget k s).outcome = (iterate turn spent rest j s').outcome ∧
        (iterate turn' spent budget k s).trace <+: (iterate turn spent budget k s).trace := by
  induction budget generalizing k s with
  | zero => exact .inl rfl
  | succ budget ih =>
    rcases shortens k s with same | ⟨outcome, stops, reached⟩
    · rcases h : turn k s with ⟨r, s' | outcome⟩
      · rw [iterate_go _ _ h, iterate_go _ _ (same.trans h)]
        rcases ih (k + 1) s' with equal | ⟨j, rest, s'', reached, onward, shorter⟩
        · exact .inl (by rw [equal])
        · exact .inr ⟨j, rest, s'', reached, onward, (List.prefix_append_right_inj _).mpr shorter⟩
      · rw [iterate_stop _ _ h, iterate_stop _ _ (same.trans h)]
        exact .inl rfl
    · -- The other run makes the record of this turn too, and then perhaps more of them.
      have within : (turn k s).record?.toList <+: (iterate turn spent (budget + 1) k s).trace := by
        rcases h : turn k s with ⟨r, s' | outcome⟩
        · rw [iterate_go _ _ h]
          exact List.prefix_append ..
        · simp [iterate_stop _ _ h]
      rw [iterate_stop _ _ stops]
      exact .inr ⟨k, budget + 1, s, reached, rfl, within⟩

end EquationSolver
