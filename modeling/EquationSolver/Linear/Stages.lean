/-!
# Staged computations

An elimination goes through the indices of a matrix in order, and each stage may break down. The
state after the first `k` stages is a computation of its own, so that what a stage keeps can be
carried through all of them.

## Main definitions

* `Breakdown`: the stage at which a computation broke down and the state it had reached
* `stages`: the state after the first stages

## Main results

* `stages_congr`: only the stages that are done matter
* `stages_induction`: what the start has and every stage keeps, every reached state has
* `exists_stages`: stages that can each be done are done to the end
* `exists_stage_of_error`: a computation that broke down reached the stage that did
* `stages_eq_ok_foldl`, `stages_eq_error`: stages that pass every state, and one that passes none
-/

namespace EquationSolver.Linear

variable {ε σ : Type} {n : Nat}

/-- Where a computation broke down. -/
structure Breakdown (σ : Type) where
  /-- The stage that could not be carried out. -/
  step : Nat
  /-- The state before that stage. -/
  reached : σ

/-- The state after the first `k` stages. -/
def stages (stage : Fin n → σ → Except ε σ) (s : σ) : (k : Nat) → k ≤ n → Except ε σ
  | 0, _ => .ok s
  | k + 1, h =>
    match stages stage s k (Nat.le_of_succ_le h) with
    | .error e => .error e
    | .ok t => stage ⟨k, h⟩ t

/-- Computations with the same first stages come to the same. -/
theorem stages_congr {stage stage' : Fin n → σ → Except ε σ} (s : σ) :
    ∀ (k : Nat) (h : k ≤ n), (∀ j : Fin n, (j : Nat) < k → stage j = stage' j) →
      stages stage s k h = stages stage' s k h
  | 0, _, _ => rfl
  | k + 1, h, same => by
    have before := stages_congr s k (Nat.le_of_succ_le h) fun j hj => same j (Nat.lt_succ_of_lt hj)
    rw [stages, stages, before, same ⟨k, h⟩ (Nat.lt_succ_self k)]

/-- What the start has and every stage keeps, every reached state has. -/
theorem stages_induction {stage : Fin n → σ → Except ε σ} {s : σ} {P : Nat → σ → Prop}
    (start : P 0 s) (step : ∀ (k : Fin n) t t', P k t → stage k t = .ok t' → P (k + 1) t') :
    ∀ (k : Nat) (h : k ≤ n) (t : σ), stages stage s k h = .ok t → P k t
  | 0, _, t, ht => by cases ht; exact start
  | k + 1, h, t, ht => by
    simp only [stages] at ht
    split at ht
    · cases ht
    · exact step ⟨k, h⟩ _ t (stages_induction start step k _ _ ‹_›) ht

/-- Stages that can each be done, from a state that the stages before keep, are done to the end. -/
theorem exists_stages {stage : Fin n → σ → Except ε σ} {s : σ} {P : Nat → σ → Prop}
    (start : P 0 s) (step : ∀ (k : Fin n) t, P k t → ∃ t', stage k t = .ok t' ∧ P (k + 1) t') :
    ∀ (k : Nat) (h : k ≤ n), ∃ t, stages stage s k h = .ok t ∧ P k t
  | 0, _ => ⟨s, rfl, start⟩
  | k + 1, h => by
    obtain ⟨t, reached, kept⟩ := exists_stages start step k (Nat.le_of_succ_le h)
    rw [stages, reached]
    exact step ⟨k, h⟩ t kept

/-- A computation that broke down reached the stage that did. -/
theorem exists_stage_of_error {stage : Fin n → σ → Except ε σ} {s : σ} {e : ε} :
    ∀ (k : Nat) (h : k ≤ n), stages stage s k h = .error e →
      ∃ (j : Fin n) (t : σ), (j : Nat) < k ∧ stages stage s j (Nat.le_of_lt j.isLt) = .ok t ∧
        stage j t = .error e
  | 0, _, broken => by cases broken
  | k + 1, h, broken => by
    simp only [stages] at broken
    split at broken
    · cases broken
      obtain ⟨j, t, before, reached⟩ := exists_stage_of_error k _ ‹_›
      exact ⟨j, t, Nat.lt_succ_of_lt before, reached⟩
    · exact ⟨⟨k, h⟩, _, Nat.lt_succ_self k, ‹_›, broken⟩

/-- Stages that can be done whatever the state are a loop. -/
theorem stages_eq_ok_foldl {stage : Fin n → σ → Except ε σ} {f : σ → Fin n → σ}
    (passes : ∀ k t, stage k t = .ok (f t k)) (s : σ) :
    ∀ (k : Nat) (h : k ≤ n),
      stages stage s k h = .ok (Fin.foldl k (fun t j => f t (j.castLE h)) s)
  | 0, _ => rfl
  | k + 1, h => by
    rw [stages, stages_eq_ok_foldl passes s k (Nat.le_of_succ_le h), Fin.foldl_succ_last]
    exact passes ⟨k, h⟩ _

/-- Where one stage refuses every state, the computation breaks down for the only cause there is. -/
theorem stages_eq_error {stage : Fin n → σ → Except ε σ} {s : σ} {e : ε} {k : Fin n}
    (only : ∀ j t e', stage j t = .error e' → e' = e) (refuses : ∀ t, stage k t = .error e) :
    stages stage s n (Nat.le_refl n) = .error e := by
  rcases run : stages stage s n (Nat.le_refl n) with e' | t
  · obtain ⟨j, t, -, -, stopped⟩ := exists_stage_of_error n _ run
    rw [only j t e' stopped]
  · -- No more stages are done than there are before the one that refuses.
    have before : n ≤ k := by
      refine stages_induction (P := fun m _ => m ≤ k) (Nat.zero_le k) ?_ n _ t run
      intro m t t' le done
      refine Nat.lt_of_le_of_ne le fun same => ?_
      obtain rfl := Fin.ext same
      rw [refuses] at done
      cases done
    exact absurd before (Nat.not_le_of_gt k.isLt)

end EquationSolver.Linear
