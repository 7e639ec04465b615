import EquationSolver.Proofs.Linear.Factorization

/-!
# Elimination and factorization in lockstep

An elimination that takes the diagonal entry as its pivot and a factorization do the same
arithmetic on the same rows. They differ in what they leave below the diagonal, zeros or
multipliers, and in when the right-hand side is worked on: at once, or by a later triangular solve.
Stage by stage the reduced matrix of the elimination is the one that the factorization holds, in any
arithmetic; no law is used, so rounding makes no difference. That the right-hand sides agree is a
fact of exact arithmetic alone.

## Main definitions

* `InStep`: two staged computations end together
* `Reduction.Follows`: a partly reduced system and a partly factored matrix belong together

## Main results

* `stages_inStep`: stages that keep a relation end together
* `reduce_inStep_factorStages`: elimination and factorization end together
* `reduce_natural_factorize`: they break down together, or make the same exchanges and find the same
  triangle; in exact arithmetic they find the same solution
-/

namespace EquationSolver.Linear

variable {α σ τ : Type} {n : Nat}

/-! ## Two staged computations -/

/-- Both computations broke down at the same stage, or both reached stage `k`, and the states they
were left in are related. -/
def InStep (ρ : Nat → σ → τ → Prop) (k : Nat) :
    Except (Breakdown σ) σ → Except (Breakdown τ) τ → Prop
  | .error e, .error e' => e.step = e'.step ∧ ρ e.step e.reached e'.reached
  | .ok s, .ok t => ρ k s t
  | _, _ => False

theorem InStep.exists_right {ρ : Nat → σ → τ → Prop} {k : Nat} {s : σ}
    {r : Except (Breakdown τ) τ} (h : InStep ρ k (.ok s) r) : ∃ t, r = .ok t ∧ ρ k s t := by
  cases r with
  | error e => exact h.elim
  | ok t => exact ⟨t, rfl, h⟩

theorem InStep.exists_left {ρ : Nat → σ → τ → Prop} {k : Nat} {t : τ}
    {r : Except (Breakdown σ) σ} (h : InStep ρ k r (.ok t)) : ∃ s, r = .ok s ∧ ρ k s t := by
  cases r with
  | error e => exact h.elim
  | ok s => exact ⟨s, rfl, h⟩

/-- Stages that keep a relation end together. -/
theorem stages_inStep {stage : Fin n → σ → Except (Breakdown σ) σ}
    {stage' : Fin n → τ → Except (Breakdown τ) τ} {ρ : Nat → σ → τ → Prop} {s : σ} {t : τ}
    (start : ρ 0 s t)
    (step : ∀ (k : Fin n) s t, ρ k s t → InStep ρ (k + 1) (stage k s) (stage' k t)) (k : Nat)
    (h : k ≤ n) : InStep ρ k (stages stage s k h) (stages stage' t k h) := by
  induction k with
  | zero => exact start
  | succ k ih =>
    have before := ih (Nat.le_of_succ_le h)
    rw [stages, stages]
    generalize stages stage s k _ = reached at before ⊢
    generalize stages stage' t k _ = reached' at before ⊢
    cases reached with
    | error e =>
      cases reached' with
      | error e' => exact before
      | ok t' => exact before.elim
    | ok s' =>
      cases reached' with
      | error e' => exact before.elim
      | ok t' => exact step ⟨k, h⟩ s' t' before

/-! ## One stage of both -/

section

variable [LE α] [DecidableLE α] [LT α] [DecidableLT α] [OfScientific α] [Scalar α]

/-- The pivot of an elimination that takes the diagonal entry depends on its column alone. -/
theorem pivot_natural_congr {A B : Dense α n n} {k : Fin n} (column : ∀ i, A i k = B i k) :
    Pivoting.natural.pivot A k = Pivoting.natural.pivot B k := by
  simp only [Pivoting.pivot, largestInColumn, column]

end

namespace Reduction

variable [Zero α] {R : Reduction α n} {F : Factoring α n}

/-- What a partly reduced system and a partly factored matrix share after `k` stages. -/
structure Follows (k : Nat) (R : Reduction α n) (F : Factoring α n) : Prop where
  /-- The reduced matrices are the same. -/
  matrix : ∀ i j, R.matrix i j = F.reduced k i j
  /-- No unknown changed its place. -/
  order : R.order.get = id
  /-- The same rows were exchanged. -/
  exchanges : R.exchanges = F.exchanges

theorem follows_start (A : Dense α n n) (b : Vector α n) :
    Follows 0 (start A b) (Factoring.start A) where
  matrix i j := by simp [start, Factoring.start, Factoring.reduced]
  order := by
    funext i
    simp [start]
  exchanges := rfl

/-- The columns from `k` on hold no multipliers yet. -/
theorem Follows.matrix_of_le {k : Nat} (h : Follows k R F) {j : Fin n} (hj : k ≤ j) (i : Fin n) :
    R.matrix i j = F.combined i j := by
  rw [h.matrix, Factoring.reduced, if_pos (.inr hj)]

theorem Follows.bring {k p : Fin n} (h : Follows k R F) (hp : k ≤ p) :
    Follows k (R.bring k p k) (F.bring k p) where
  matrix i j := by
    rw [bring_matrix, exchange_self, F.reduced_bring hp]
    exact h.matrix _ j
  order := by
    funext i
    rw [Reduction.bring, get_exchangeEntries, exchange_self, h.order]
  exchanges := by
    rw [Reduction.bring, Factoring.bring, h.exchanges]

variable [Sub α] [Mul α] [Div α]

/-- Below the pivot the one clears where the other keeps the multiplier; right of it both subtract
the same products. -/
theorem Follows.clear {k : Fin n} (h : Follows k R F) :
    Follows (k + 1) (R.clear k) (F.divide k) where
  matrix i j := by
    rcases le_or_gt i k with above | below
    · rw [clear_of_le R above, F.reduced_divide_of_le above]
      exact h.matrix i j
    · have factor : R.factor k i = F.factor k i := by
        rw [Reduction.factor, Factoring.factor, h.matrix_of_le le_rfl, h.matrix_of_le le_rfl]
      rcases lt_trichotomy j k with done | rfl | later
      · -- The columns done were cleared by the stages before.
        have left : ¬ (i ≤ j ∨ (k : Nat) ≤ j) :=
          not_or.mpr ⟨(done.trans below).not_ge, Nat.not_le.mpr done⟩
        have left' : ¬ (i ≤ j ∨ (k : Nat) + 1 ≤ j) :=
          not_or.mpr ⟨(done.trans below).not_ge, Nat.not_le.mpr (Nat.lt_succ_of_lt done)⟩
        rw [clear_of_lt R done, h.matrix, Factoring.reduced, Factoring.reduced, if_neg left,
          if_neg left']
      · have left : ¬ (i ≤ j ∨ (j : Nat) + 1 ≤ j) :=
          not_or.mpr ⟨below.not_ge, Nat.not_succ_le_self _⟩
        rw [clear_self R below, Factoring.reduced, if_neg left]
      · rw [clear_of_gt R below later, Factoring.reduced, if_pos (.inr later),
          F.divide_of_gt below later, factor, h.matrix_of_le later.le, h.matrix_of_le later.le]
  order := h.order
  exchanges := h.exchanges

variable [LE α] [DecidableLE α] [LT α] [DecidableLT α] [OfScientific α] [Scalar α]

/-- A stage of the one is a stage of the other. -/
theorem Follows.stage {k : Fin n} (h : Follows k R F) :
    InStep Follows (k + 1) (Reduction.stage .natural k R) (Factoring.stage k F) := by
  obtain ⟨p, pivot⟩ : ∃ p, Pivoting.natural.pivot F.combined k = (p, k) := ⟨_, rfl⟩
  have left := (Pivoting.natural.le_pivot F.combined k).1
  rw [pivot] at left
  rw [Reduction.stage, Factoring.stage, pivot_natural_congr (h.matrix_of_le le_rfl), pivot]
  dsimp only
  rw [h.matrix_of_le le_rfl]
  split
  · exact ⟨rfl, h⟩
  · exact (h.bring left).clear

end Reduction

/-! ## Both to the end -/

section

theorem upper_eq_matrix [Add α] [Zero α] [One α] {R : Reduction α n} {F : Factoring α n}
    (h : R.Follows n F) : F.factors.upper = R.matrix := by
  ext i j
  rw [h.matrix]
  simp [Factoring.factors, Factoring.reduced, j.isLt.not_ge]

variable [Sub α] [Mul α] [Div α] [Zero α] [LE α] [DecidableLE α] [LT α] [DecidableLT α]
  [OfScientific α] [Scalar α] {A : Dense α n n} {b : Vector α n} {R : Reduction α n}
  {F : Factoring α n}

/-- Elimination and factorization end together. -/
theorem reduce_inStep_factorStages (A : Dense α n n) (b : Vector α n) :
    InStep Reduction.Follows n (reduce .natural A b) (factorStages A) :=
  stages_inStep (Reduction.follows_start A b) (fun _ _ _ => Reduction.Follows.stage) n le_rfl

theorem exists_factorStages (h : reduce .natural A b = .ok R) :
    ∃ F, factorStages A = .ok F ∧ R.Follows n F := by
  have together := reduce_inStep_factorStages A b
  rw [h] at together
  exact together.exists_right

theorem exists_reduce (b : Vector α n) (h : factorStages A = .ok F) :
    ∃ R, reduce .natural A b = .ok R ∧ R.Follows n F := by
  have together := reduce_inStep_factorStages A b
  rw [h] at together
  exact together.exists_left

/-- An elimination breaks down where the factorization does. -/
theorem reduce_eq_error_iff [Add α] [One α] {k : Nat} :
    (∃ R, reduce .natural A b = .error ⟨k, R⟩) ↔ factorize A = .error (.factor k) := by
  have together := reduce_inStep_factorStages A b
  rw [factorize]
  generalize reduce .natural A b = reduced at together ⊢
  generalize factorStages A = factored at together ⊢
  match reduced, factored, together with
  | .error ⟨step, R⟩, .error e, ⟨same, _⟩ =>
    obtain rfl : step = e.step := same
    simp
  | .ok _, .ok _, _ => simp

end

/-! ## The right-hand side -/

section

variable {K : Type} [Field K]

variable [LinearOrder K] [IsStrictOrderedRing K] {A : Dense K n n} {b : Vector K n}
  {R : Reduction K n} {F : Factoring K n}

/-- What the elimination made of the right-hand side is what the forward substitution finds. -/
theorem forwardSubstitute_eq_rhs (reduced : reduce .natural A b = .ok R)
    (factored : factorStages A = .ok F) (follows : R.Follows n F) :
    forwardSubstitute F.factors.lower (.ofFn (b.get ∘ F.order.get)) = .ok R.rhs := by
  have factors : factorize A = .ok F.factors := factorize_eq_ok_iff.mpr ⟨F, factored, rfl⟩
  have shape := Reduction.reduced_of_stages reduced
  obtain ⟨y, substituted⟩ := exists_backSubstitute reduced
  obtain ⟨z, forward⟩ := exists_forwardSubstitute factors (.ofFn (b.get ∘ F.order.get))
  have row : Solves R.matrix R.rhs.get y.get :=
    (solves_backSubstitute (fun i j => shape.cleared i j j.isLt) substituted).mpr rfl
  have given : Solves A b.get y.get := by
    rw [Reduction.keeps_of_stages reduced, follows.order, Function.comp_id]
    exact row
  -- The solution `y` of the given system is one of the product of the factors, and the upper factor
  -- takes it to the right-hand side that the elimination reached.
  have back : (fun l => ∑ j, R.matrix l j * y.get j) = R.rhs.get := funext row
  have reordered : (Vector.ofFn (b.get ∘ F.order.get)).get = b.get ∘ F.order.get :=
    funext (get_ofFn _)
  rw [← solves_reorder (order_bijective factors), solves_product_iff (lower_mul_upper factors),
    upper_eq_matrix follows, back] at given
  change Solves _ (b.get ∘ F.order.get) _ at given
  rw [← reordered, solves_forwardSubstitute (fun i j => lower_eq_zero factors) forward] at given
  rw [forward, get_injective given]

/-- Nothing is put back where no unknown changed its place. -/
theorem scatter_of_order_eq_id {order : Vector (Fin n) n} (h : order.get = id) (y : Vector α n) :
    scatter order y = y := by
  have distinct : Function.Injective order.get := by
    rw [h]
    exact Function.injective_id
  apply get_injective
  funext k
  have back := get_scatter distinct y k
  rwa [h] at back

/-- Both triangular systems with the upper triangle are one, so that they have one solution. -/
theorem exists_common_solution (reduced : reduce .natural A b = .ok R)
    (factored : factorStages A = .ok F) (follows : R.Follows n F) :
    ∃ x, gaussSolve .natural A b = .ok x ∧ luSolve A b = .ok x := by
  obtain ⟨x, substituted⟩ := exists_backSubstitute reduced
  refine ⟨x, gaussSolve_eq_ok_iff.mpr ⟨R, x, reduced, substituted, ?_⟩,
    luSolve_eq_ok_iff.mpr ⟨F.factors, R.rhs, factorize_eq_ok_iff.mpr ⟨F, factored, rfl⟩,
      forwardSubstitute_eq_rhs reduced factored follows, ?_⟩⟩
  · exact scatter_of_order_eq_id follows.order x
  · rw [upper_eq_matrix follows]
    exact substituted

end

/-- **Elimination from the diagonal and factorization are the same.** In any arithmetic one breaks
down exactly where the other does, and else they exchange the same rows and find the same triangle.
In exact arithmetic the right-hand side of the elimination is then the forward substitution of the
given one in the order of the rows, and both find the same solution. -/
theorem reduce_natural_factorize :
    (∀ {α : Type} [Add α] [Sub α] [Mul α] [Div α] [Zero α] [One α] [LE α] [DecidableLE α] [LT α]
        [DecidableLT α] [OfScientific α] [Scalar α] {n : Nat} (A : Dense α n n) (b : Vector α n),
      (∀ k, (∃ R, reduce .natural A b = .error ⟨k, R⟩) ↔ factorize A = .error (.factor k)) ∧
      ∀ R, reduce .natural A b = .ok R → ∃ F, factorStages A = .ok F ∧
        F.exchanges = R.exchanges ∧ F.factors.upper = R.matrix) ∧
    ∀ {K : Type} [Field K] [LinearOrder K] [IsStrictOrderedRing K] {n : Nat} (A : Dense K n n)
        (b : Vector K n) (R : Reduction K n),
      reduce .natural A b = .ok R → ∃ F x, factorize A = .ok F ∧
        forwardSubstitute F.lower (.ofFn (b.get ∘ F.order.get)) = .ok R.rhs ∧
        gaussSolve .natural A b = .ok x ∧ luSolve A b = .ok x := by
  refine ⟨fun A b => ⟨fun k => reduce_eq_error_iff, fun R reduced => ?_⟩, fun A b R reduced => ?_⟩
  · obtain ⟨F, factored, follows⟩ := exists_factorStages reduced
    exact ⟨F, factored, follows.exchanges.symm, upper_eq_matrix follows⟩
  · obtain ⟨F, factored, follows⟩ := exists_factorStages reduced
    obtain ⟨x, gauss, lu⟩ := exists_common_solution reduced factored follows
    exact ⟨F.factors, x, factorize_eq_ok_iff.mpr ⟨F, factored, rfl⟩,
      forwardSubstitute_eq_rhs reduced factored follows, gauss, lu⟩

/-- The system `y = 1`, `2 x + 3 y = 7`, whose first pivot is in the second row. -/
def secondRowFirst : Dense ℚ 2 2 × Vector ℚ 2 := (⟨#v[#v[0, 1], #v[2, 3]]⟩, #v[1, 7])

theorem reduce_natural_factorize_secondRowFirst :
    (∃ R F, reduce .natural secondRowFirst.1 secondRowFirst.2 = .ok R ∧
      factorStages secondRowFirst.1 = .ok F ∧ F.exchanges = [.rows 0 0 1] ∧
      F.exchanges = R.exchanges ∧ F.factors.upper = R.matrix) ∧
    gaussSolve .natural secondRowFirst.1 secondRowFirst.2 = .ok #v[2, 1] ∧
    luSolve secondRowFirst.1 secondRowFirst.2 = .ok #v[2, 1] := by
  have found : gaussSolve .natural secondRowFirst.1 secondRowFirst.2 = .ok #v[2, 1] := by
    decide +kernel
  obtain ⟨R, y, reduced, -, -⟩ := gaussSolve_eq_ok_iff.mp found
  obtain ⟨F, factored, same, upper⟩ :=
    (reduce_natural_factorize.1 secondRowFirst.1 secondRowFirst.2).2 R reduced
  obtain ⟨-, x, -, -, gauss, lu⟩ :=
    reduce_natural_factorize.2 secondRowFirst.1 secondRowFirst.2 R reduced
  have exchanges : (factorStages secondRowFirst.1).toOption.map Factoring.exchanges =
      some [.rows 0 0 1] := by
    decide +kernel
  rw [factored] at exchanges
  obtain rfl : x = #v[2, 1] := Except.ok.inj (gauss.symm.trans found)
  exact ⟨⟨R, F, reduced, factored, Option.some.inj exchanges, same, upper⟩, found, lu⟩

end EquationSolver.Linear
