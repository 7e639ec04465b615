import EquationSolver.Proofs.Linear.Lockstep
import Mathlib.LinearAlgebra.Matrix.Rank

/-!
# The verdict on singular matrices

An elimination that runs to its end has found as many pivots as there are rows, so the matrix is
invertible. One that breaks down has found a column, or under full pivoting a whole block, of
entries that count as zero. These entries stand in rows that were taken from no other row yet: with
the multiples added back, each of them changes one entry of the given matrix by its own size.
Without them the matrix is singular. The verdict is therefore right for the given matrix or for one
that differs from it by less than the threshold everywhere.

## Main definitions

* `Pivoting.Searches`: the columns in which a strategy looks for its pivot
* `Reduction.MakesUp`: a partly reduced matrix makes up the given one
* `Reduction.cut`: the matrix at a breakdown without the entries that counted as zero

## Main results

* `Reduction.makesUp_of_stages`: what the stages keep
* `Reduction.MakesUp.replace`: what a change of the rows left does to the given matrix
* `Pivoting.modulus_le_pivot`: a pivot that was searched for exceeds every entry that was looked at
* `Pivoting.tiny_of_pivot`: a pivot that counts as zero stands for every entry that was looked at
* `singular_verdict`: the verdict of the eliminations and of the factorization
-/

namespace EquationSolver.Linear

open Finset

variable {n : Nat} {K : Type} [Field K]

/-- The columns in which a strategy looks for the pivot of stage `k`. -/
def Pivoting.Searches : Pivoting → Fin n → Fin n → Prop
  | .full, k, j => k ≤ j
  | _, k, j => j = k

instance : (strategy : Pivoting) → (k j : Fin n) → Decidable (strategy.Searches k j)
  | .full, k, j => inferInstanceAs (Decidable (k ≤ j))
  | .natural, k, j => inferInstanceAs (Decidable (j = k))
  | .column, k, j => inferInstanceAs (Decidable (j = k))

theorem Pivoting.searches_self (strategy : Pivoting) (k : Fin n) : strategy.Searches k k := by
  cases strategy with
  | full => exact le_rfl
  | natural => rfl
  | column => rfl

/-! ## What the stages make of the rows -/

/-- Adding multiples of earlier rows to later ones keeps the determinant. -/
theorem det_one_add {M : Fin n → Fin n → K} (earlier : ∀ i l, ¬ l < i → M i l = 0) :
    (1 + Matrix.of M).det = 1 := by
  have lower : (1 + Matrix.of M).IsLowerTriangular := by
    intro i l right
    have right : i < l := right
    rw [Matrix.add_apply, Matrix.one_apply_ne right.ne, Matrix.of_apply,
      earlier i l right.not_gt, add_zero]
  have diagonal (i : Fin n) : (1 + Matrix.of M) i i = 1 := by
    rw [Matrix.add_apply, Matrix.one_apply_eq, Matrix.of_apply, earlier i i (lt_irrefl i), add_zero]
  rw [Matrix.det_of_isLowerTriangular _ lower]
  simp only [diagonal, prod_const_one]

namespace Reduction

variable {A : Dense K n n} {b : Vector K n} {R R' : Reduction K n} {k p q : Fin n}

/-- The rows of a partly reduced matrix, with multiples of its first `k` rows added back, are rows
of the given matrix with the columns in the order reached. -/
def MakesUp (A : Dense K n n) (k : Nat) (R : Reduction K n) : Prop :=
  ∃ (rows : Equiv.Perm (Fin n)) (M : Fin n → Fin n → K),
    (∀ i l : Fin n, ¬ (l < i ∧ (l : Nat) < k) → M i l = 0) ∧
    ∀ i j, R.matrix i j + ∑ l, M i l * R.matrix l j = A (rows i) (R.order.get j)

theorem makesUp_start (A : Dense K n n) (b : Vector K n) : MakesUp A 0 (start A b) := by
  refine ⟨1, fun _ _ => 0, fun _ _ _ => rfl, fun i j => ?_⟩
  simp [start]

/-- The multiples travel with their rows, and belong to rows that stay where they are. -/
theorem MakesUp.bring (h : MakesUp A k R) (hp : k ≤ p) : MakesUp A k (R.bring k p q) := by
  obtain ⟨rows, M, earlier, sums⟩ := h
  refine ⟨rows * Equiv.swap k p, fun i l => M (exchange k p i) l, fun i l other => ?_,
    fun i j => ?_⟩
  · apply earlier
    rintro ⟨left, done⟩
    apply other
    refine ⟨?_, done⟩
    by_cases hi : i < k
    · rwa [exchange_of_lt hp hi] at left
    · exact lt_of_lt_of_le done (not_lt.mp hi)
  · -- No row from `k` on was taken from, so that the exchange leaves the sums as they are.
    simp only [bring_matrix]
    rw [sum_multiples_exchange hp (fun l hl => earlier _ l fun left => hl left.2)
      (fun l => R.matrix l (exchange k q j)), sums, Reduction.bring, get_exchangeEntries,
      Equiv.Perm.mul_apply, exchange_eq_swap]

section

variable [LinearOrder K]

/-- What a stage takes from the rows it adds to the multiples. -/
theorem MakesUp.clear (h : MakesUp A k R) (shape : Reduced k R) (pivot : R.matrix k k ≠ 0) :
    MakesUp A (k + 1) (R.clear k) := by
  obtain ⟨rows, M, earlier, sums⟩ := h
  refine ⟨rows, fun i l => M i l + if k < i ∧ l = k then R.factor k i else 0,
    fun i l other => ?_, fun i j => ?_⟩
  · have outside : ¬ (k < i ∧ l = k) := by
      rintro ⟨below, rfl⟩
      exact other ⟨below, Nat.lt_succ_self _⟩
    change M i l + _ = 0
    rw [earlier i l fun left => other ⟨left.1, Nat.lt_succ_of_lt left.2⟩, if_neg outside, zero_add]
  · have order : (R.clear k).order = R.order := rfl
    rw [order, ← sums]
    refine add_sum_multiples_clear (R.factor k) (fun i l hl => earlier i l fun left => hl left.2)
      (fun i j => ?_) (fun _ _ => rfl) i j
    by_cases below : k < i
    · rw [if_pos below, shape.clear_row pivot below]
    · rw [if_neg below, clear_of_le R (not_lt.mp below)]

variable [IsStrictOrderedRing K]

theorem MakesUp.stage {strategy : Pivoting} (h : MakesUp A k R) (shape : Reduced k R)
    (done : Reduction.stage strategy k R = .ok R') : MakesUp A (k + 1) R' := by
  obtain ⟨p, q, hp, hq, notTiny, rfl⟩ := brought_of_stage done
  exact (h.bring hp).clear (shape.bring hp hq) (ne_zero_of_not_isTiny notTiny)

theorem makesUp_of_stages {strategy : Pivoting} {k : Nat} {hk : k ≤ n}
    (h : stages (Reduction.stage strategy) (start A b) k hk = .ok R) : MakesUp A k R :=
  induction_of_stages (makesUp_start A b) (fun _ _ _ shape makesUp => makesUp.stage shape) h

end

/-- The rows that were taken from no other row may be replaced: the given matrix changes by the
same amounts. -/
theorem MakesUp.replace {k : Nat} (h : MakesUp A k R) (order : Function.Injective R.order.get)
    {B : Matrix (Fin n) (Fin n) K} (rest : ∀ l j : Fin n, (l : Nat) < k → B l j = R.matrix l j) :
    ∃ (A' : Matrix (Fin n) (Fin n) K) (rows cols : Equiv.Perm (Fin n)),
      (∀ i j, A i j - A' i j = R.matrix (rows i) (cols j) - B (rows i) (cols j)) ∧
      (IsUnit A' ↔ IsUnit B) ∧ A'.rank = B.rank := by
  obtain ⟨rows, M, earlier, sums⟩ := h
  let cols := Equiv.ofBijective _ (Finite.injective_iff_bijective.mp order)
  let A' := Matrix.of fun i j => A i j -
    (R.matrix (rows.symm i) (cols.symm j) - B (rows.symm i) (cols.symm j))
  -- Only the first `k` rows have multiples, and these rows are the same in both matrices.
  have product : A'.submatrix rows cols = (1 + Matrix.of M) * B := by
    ext i j
    have multiple (l : Fin n) : M i l * B l j = M i l * R.matrix l j := by
      by_cases hl : (l : Nat) < k
      · rw [rest l j hl]
      · rw [earlier i l fun left => hl left.2, zero_mul, zero_mul]
    have entry : A'.submatrix rows cols i j =
        A (rows i) (R.order.get j) - (R.matrix i j - B i j) := by
      simp [A', cols]
    rw [entry, add_mul, one_mul, Matrix.add_apply, Matrix.mul_apply, ← sums]
    simp only [Matrix.of_apply, multiple]
    abel
  -- The left factor adds multiples of earlier rows to later ones, which can be undone.
  have unit : IsUnit (1 + Matrix.of M) := by
    rw [Matrix.isUnit_iff_isUnit_det, det_one_add fun i l right => earlier i l (mt And.left right)]
    exact isUnit_one
  refine ⟨A', rows.symm, cols.symm, fun i j => sub_sub_cancel .., ?_, ?_⟩
  · rw [← Matrix.isUnit_submatrix_equiv rows cols, product]
    exact unit.mul_left_iff
  · rw [← Matrix.rank_submatrix A' rows cols, product]
    exact Matrix.rank_mul_eq_right_of_isUnit_det _ _ ((Matrix.isUnit_iff_isUnit_det _).mp unit)

end Reduction

/-! ## What counts as zero at a breakdown -/

section

variable [LinearOrder K]

theorem le_firstLargest {ι : Type} (value : ι → K) (start : ι) (candidates : List ι) :
    ∀ i ∈ start :: candidates, value i ≤ value (firstLargest value start candidates) := by
  induction candidates generalizing start with
  | nil =>
    intro i hi
    rw [List.mem_singleton.mp hi]
    exact le_rfl
  | cons c candidates ih =>
    intro i hi
    rw [firstLargest, List.foldl_cons]
    by_cases beats : Beats (value start) (value c)
    · rw [if_pos beats]
      rcases List.mem_cons.mp hi with rfl | later
      · exact (not_le.mp beats.2).le.trans (ih c c List.mem_cons_self)
      · exact ih c i later
    · rw [if_neg beats]
      have kept : value c ≤ value start := by
        by_contra above
        exact beats ⟨rfl, above⟩
      rcases List.mem_cons.mp hi with rfl | later
      · exact ih i i List.mem_cons_self
      rcases List.mem_cons.mp later with rfl | later
      · exact kept.trans (ih start start List.mem_cons_self)
      · exact ih start i (List.mem_cons_of_mem _ later)

theorem modulus_le_largestInColumn (A : Dense K n n) {k i : Fin n} (hi : k ≤ i) :
    |A i k| ≤ |A (largestInColumn A k) k| :=
  le_firstLargest (fun i => modulus (A i k)) k (indicesFrom k) i
    (List.mem_cons_of_mem _ (mem_indicesFrom.mpr hi))

theorem modulus_le_largestFrom (A : Dense K n n) {k i j : Fin n} (hi : k ≤ i) (hj : k ≤ j) :
    |A i j| ≤ |A (largestFrom A k).1 (largestFrom A k).2| := by
  refine le_firstLargest (fun p => modulus (A p.1 p.2)) (k, k) _ (i, j) ?_
  apply List.mem_cons_of_mem
  rw [List.mem_flatMap]
  exact ⟨i, mem_indicesFrom.mpr hi, List.mem_map.mpr ⟨j, mem_indicesFrom.mpr hj, rfl⟩⟩

/-- A strategy other than the natural one takes a pivot that no entry it looked at exceeds. -/
theorem Pivoting.modulus_le_pivot {strategy : Pivoting} (notNatural : strategy ≠ .natural)
    (A : Dense K n n) {k i j : Fin n} (hi : k ≤ i) (hj : strategy.Searches k j) :
    |A i j| ≤ |A (strategy.pivot A k).1 (strategy.pivot A k).2| := by
  cases strategy with
  | natural => contradiction
  | column =>
    obtain rfl : j = k := hj
    exact modulus_le_largestInColumn A hi
  | full => exact modulus_le_largestFrom A hi hj

/-- A pivot that counts as zero stands for every entry that was looked at. -/
theorem Pivoting.tiny_of_pivot {strategy : Pivoting} {A : Dense K n n} {k : Fin n}
    (h : IsTiny (A (strategy.pivot A k).1 (strategy.pivot A k).2)) {i j : Fin n} (hi : k ≤ i)
    (hj : strategy.Searches k j) : IsTiny (A i j) := by
  by_cases natural : strategy = .natural
  · subst natural
    obtain rfl : j = k := hj
    dsimp only [pivot] at h
    -- A diagonal entry that does not count as zero would have been the pivot.
    split at h
    · exact (modulus_le_largestInColumn A hi).trans_lt h
    · contradiction
  · exact (modulus_le_pivot natural A hi hj).trans_lt h

end

namespace Reduction

variable {k : Fin n} {R : Reduction K n} {strategy : Pivoting}

/-- The matrix at a breakdown of stage `k`, without the entries that counted as zero. -/
def cut (strategy : Pivoting) (k : Fin n) (R : Reduction K n) : Matrix (Fin n) (Fin n) K :=
  .of fun i j => if k ≤ i ∧ strategy.Searches k j then 0 else R.matrix i j

theorem cut_of_lt {i : Fin n} (hi : i < k) (j : Fin n) : R.cut strategy k i j = R.matrix i j := by
  rw [cut, Matrix.of_apply, if_neg fun behind => hi.not_ge behind.1]

variable [LinearOrder K]

/-- The columns done are cleared, and what was searched is cut. -/
theorem cut_eq_zero (shape : Reduced k R) {i j : Fin n} (hi : k ≤ i)
    (hj : j < k ∨ strategy.Searches k j) : R.cut strategy k i j = 0 := by
  rw [cut, Matrix.of_apply, ite_eq_left_iff]
  intro kept
  rcases hj with done | searched
  · exact shape.cleared i j done (done.trans_le hi)
  · exact absurd ⟨hi, searched⟩ kept

/-- The rows from `k` on are left with nothing in the first `k + 1` columns. -/
theorem det_cut (shape : Reduced k R) : (R.cut strategy k).det = 0 := by
  have cleared (i : Fin n) (hi : ¬ i < k) (j : Fin n) (hj : j < k) : R.cut strategy k i j = 0 :=
    cut_eq_zero shape (not_lt.mp hi) (.inl hj)
  let pivot : { i : Fin n // ¬ i < k } := ⟨k, lt_irrefl k⟩
  rw [Matrix.twoBlockTriangular_det _ (· < k) cleared]
  apply mul_eq_zero_of_right
  apply Matrix.det_eq_zero_of_column_eq_zero pivot
  intro i
  exact cut_eq_zero shape (not_lt.mp i.2) (.inr (strategy.searches_self k))

variable [IsStrictOrderedRing K]

/-- Under full pivoting they are left with nothing at all. -/
theorem rank_cut (shape : Reduced k R) : (R.cut .full k).rank = k := by
  apply le_antisymm
  · -- The first `k` rows are all that is left.
    have support : Function.support (R.cut .full k).row ⊆ Iio k := by
      rw [Function.support_subset_iff']
      intro i hi
      funext j
      have hi : k ≤ i := by simpa using hi
      exact cut_eq_zero shape hi (lt_or_ge j k)
    simpa using Matrix.rank_le_card_of_support_subset _ _ support
  · -- They are independent: their leading block is triangular, with the pivots on its diagonal.
    let first : Fin k → Fin n := Fin.castLE k.isLt.le
    have before (i : Fin k) : first i < k := i.isLt
    let leading := (R.cut .full k).submatrix first first
    have entry (i j : Fin k) : leading i j = R.matrix (first i) (first j) := cut_of_lt (before i) _
    have upper : leading.IsUpperTriangular := by
      intro i j below
      rw [entry]
      exact shape.cleared _ _ (before j) below
    have invertible : leading.det ≠ 0 := by
      rw [Matrix.det_of_isUpperTriangular upper]
      refine prod_ne_zero_iff.mpr fun i _ => ?_
      rw [entry]
      exact ne_zero_of_not_isTiny (shape.diagonal _ (before i))
    calc (k : Nat) = leading.rank := by rw [Matrix.rank_of_det_ne_zero invertible, Fintype.card_fin]
      _ ≤ (R.cut .full k).rank := Matrix.rank_submatrix_le ..

end Reduction

/-! ## The verdict -/

section

variable [LinearOrder K] [IsStrictOrderedRing K] {strategy : Pivoting} {A : Dense K n n}
  {b : Vector K n}

/-- An elimination that runs to its end has an invertible matrix. -/
theorem isUnit_of_reduce {R : Reduction K n} (h : reduce strategy A b = .ok R) :
    IsUnit (Matrix.of A.entry) := by
  have shape := Reduction.reduced_of_stages h
  -- With nothing replaced the matrix that is made up is the given one.
  obtain ⟨A', rows, cols, same, unit, -⟩ := (Reduction.makesUp_of_stages h).replace shape.order
    (B := .of R.matrix.entry) fun _ _ _ => rfl
  have given : Matrix.of A.entry = A' := by
    ext i j
    exact sub_eq_zero.mp ((same i j).trans (sub_self _))
  have upper : (Matrix.of R.matrix.entry).IsUpperTriangular :=
    fun i j below => shape.cleared i j j.isLt below
  rw [given, unit, Matrix.isUnit_iff_isUnit_det, Matrix.det_of_isUpperTriangular upper,
    isUnit_iff_ne_zero]
  exact prod_ne_zero_iff.mpr fun i _ => ne_zero_of_not_isTiny (shape.diagonal i i.isLt)

theorem exists_reduce_eq_error (singular : (Matrix.of A.entry).det = 0) (strategy : Pivoting)
    (b : Vector K n) : ∃ e, reduce strategy A b = .error e := by
  match reduced : reduce strategy A b with
  | .error e => exact ⟨e, rfl⟩
  | .ok R =>
    have unit := isUnit_of_reduce reduced
    rw [Matrix.isUnit_iff_isUnit_det, singular] at unit
    exact absurd unit not_isUnit_zero

/-- A matrix with a breakdown is next to a singular one. -/
theorem exists_singular_near {e : Breakdown (Reduction K n)} (h : reduce strategy A b = .error e) :
    ∃ A' : Matrix (Fin n) (Fin n) K, (∀ i j, |A i j - A' i j| < 1e-12) ∧ A'.det = 0 ∧
      (strategy = .full → A'.rank = e.step) := by
  obtain ⟨k, R, -, reached, broken⟩ := exists_stage_of_error n _ h
  obtain ⟨rfl, tiny⟩ := Reduction.tiny_of_stage broken
  have shape := Reduction.reduced_of_stages reached
  obtain ⟨A', rows, cols, change, unit, rank⟩ :=
    (Reduction.makesUp_of_stages reached).replace shape.order (B := R.cut strategy k)
      fun l j hl => Reduction.cut_of_lt hl j
  refine ⟨A', fun i j => ?_, ?_, ?_⟩
  · rw [change, Reduction.cut, Matrix.of_apply]
    split
    · rename_i searched
      rw [sub_zero]
      exact Pivoting.tiny_of_pivot tiny searched.1 searched.2
    · rw [sub_self, abs_zero]
      norm_num
  · rw [Matrix.isUnit_iff_isUnit_det, Matrix.isUnit_iff_isUnit_det, isUnit_iff_ne_zero,
      isUnit_iff_ne_zero, not_iff_not] at unit
    exact unit.mpr (Reduction.det_cut shape)
  · rintro rfl
    rw [rank, Reduction.rank_cut shape]

/-- **The verdict on singular matrices.** Over an ordered field every singular matrix makes each
elimination and the factorization break down. Where one of them breaks down, a singular matrix lies
within the threshold of the given one in every entry; under full pivoting its rank is the number of
the stages that were done. -/
theorem singular_verdict (A : Dense K n n) (b : Vector K n) :
    (∀ strategy : Pivoting,
      ((Matrix.of A.entry).det = 0 → ∃ e, reduce strategy A b = .error e) ∧
      ∀ e, reduce strategy A b = .error e → ∃ A' : Matrix (Fin n) (Fin n) K,
        (∀ i j, |A i j - A' i j| < 1e-12) ∧ A'.det = 0 ∧
          (strategy = .full → A'.rank = e.step)) ∧
    ((Matrix.of A.entry).det = 0 → ∃ cause, factorize A = .error cause) ∧
    ∀ cause, factorize A = .error cause → ∃ A' : Matrix (Fin n) (Fin n) K,
      (∀ i j, |A i j - A' i j| < 1e-12) ∧ A'.det = 0 := by
  refine ⟨fun strategy => ⟨fun singular => exists_reduce_eq_error singular strategy b,
    fun e => exists_singular_near⟩, fun singular => ?_, fun cause broken => ?_⟩
  · obtain ⟨⟨k, R⟩, broken⟩ := exists_reduce_eq_error singular .natural b
    exact ⟨_, reduce_eq_error_iff.mp ⟨R, broken⟩⟩
  · obtain ⟨k, rfl⟩ := exists_factor_of_factorize broken
    obtain ⟨R, broken⟩ := reduce_eq_error_iff (b := b).mpr broken
    obtain ⟨A', near, singular, -⟩ := exists_singular_near broken
    exact ⟨A', near, singular⟩

/-- Two equations that say the same. -/
def sameEquations : Dense ℚ 2 2 := ⟨#v[#v[1, 2], #v[2, 4]]⟩

theorem singular_verdict_sameEquations : ∃ R, reduce .full sameEquations #v[1, 1] = .error ⟨1, R⟩ ∧
    ∃ A' : Matrix (Fin 2) (Fin 2) ℚ, (∀ i j, |sameEquations i j - A' i j| < 1e-12) ∧
      A'.det = 0 ∧ A'.rank = 1 := by
  have singular : (Matrix.of sameEquations.entry).det = 0 := by
    rw [Matrix.det_fin_two]
    decide +kernel
  obtain ⟨verdict, near⟩ := (singular_verdict sameEquations #v[1, 1]).1 .full
  obtain ⟨⟨k, R⟩, broken⟩ := verdict singular
  have solved : gaussSolve .full sameEquations #v[1, 1] = .error (.pivot .full 1) := by
    decide +kernel
  obtain rfl : k = 1 := by
    rw [gaussSolve, broken] at solved
    cases solved
    rfl
  obtain ⟨A', close, det, rank⟩ := near _ broken
  exact ⟨R, broken, A', close, det, rank rfl⟩

end

end EquationSolver.Linear
