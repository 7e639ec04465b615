import EquationSolver.Proofs.Linear.Shape
import Mathlib.LinearAlgebra.Matrix.PosDef

/-!
# The factor of a symmetric matrix and its definiteness

Over the real numbers the factor is lower triangular with a diagonal that is well above zero, and
its product with its transpose is the given matrix. A symmetric matrix that has a factor is
therefore positive definite. One that is refused was refused for a pivot, and every pivot is a value
of the quadratic form: at a vector with a one in the row of the pivot that the columns of the factor
found so far do not see. A form that stays above the threshold of a pivot is never refused.

## Main definitions

* `pivotSquare`: what the square of a diagonal entry of the factor would be
* `Unseen`: a vector that the columns of the factor found so far do not see
* `foundColumns`: these columns as an upper triangular system

## Main results

* `cholesky_product`: the factor, and that it depends on the lower triangle alone
* `posDef_of_cholesky`: a matrix that has a factor is positive definite
* `exists_form_eq_pivot`: every pivot is a value of the quadratic form
* `cholesky_verdict`: the verdict on symmetric matrices
-/

namespace EquationSolver.Linear

open Finset Matrix

variable {n : Nat}

/-! ## Pivots as values of the quadratic form -/

section

variable {K : Type} [Field K] {A L : Dense K n n} {i : Fin n}

/-- What is left of the diagonal entry in row `i` when the row of the factor is taken from it. -/
def pivotSquare (A L : Dense K n n) (i : Fin n) : K := A i i - ∑ l with l < i, L i l * L i l

/-- Up to row `i` the columns of the factor found so far make up the matrix, and on the diagonal of
that row the pivot is left over. -/
theorem Factors.entry_eq (h : Factors A i i L) (symmetric : ∀ i j, A i j = A j i) {r c : Fin n}
    (hr : r ≤ i) (hc : c ≤ i) :
    A r c = ∑ l with l < i, L r l * L c l + if r = i ∧ c = i then pivotSquare A L i else 0 := by
  -- Both sides are symmetric, and the loops fill in the lower triangle.
  wlog left : c ≤ r generalizing r c
  · rw [symmetric, this hc hr (le_of_not_ge left)]
    simp only [mul_comm, and_comm]
  by_cases last : c = i
  · obtain rfl : r = i := le_antisymm hr (last ▸ left)
    rw [last, if_pos ⟨rfl, rfl⟩, pivotSquare, add_sub_cancel]
  · have before : c < i := lt_of_le_of_ne hc last
    have filled : FilledTo i i r c := hr.lt_or_eq.imp id fun same => ⟨congrArg _ same, before⟩
    rw [if_neg fun both => last both.2, add_zero, ← h.product r c left filled]
    -- The row of the factor that belongs to column `c` ends on the diagonal.
    refine sum_subset (fun l hl => ?_) fun l _ outside => ?_
    · rw [mem_filter] at hl ⊢
      exact ⟨hl.1, hl.2.trans_lt before⟩
    · have right : c < l := by simpa using outside
      rw [h.upper c l right, mul_zero]

/-- A vector that ends with a one in row `i` and that the columns of the factor before this row do
not see. -/
structure Unseen (L : Dense K n n) (i : Fin n) (x : Fin n → K) : Prop where
  /-- The entry in row `i`. -/
  one : x i = 1
  /-- The entries behind it. -/
  behind : ∀ c, i < c → x c = 0
  /-- The products with the columns before. -/
  columns : ∀ l < i, ∑ c, L c l * x c = 0

variable {x : Fin n → K}

/-- Such a vector leaves only the pivot of the matrix. -/
theorem Factors.mulVec_eq (h : Factors A i i L) (symmetric : ∀ i j, A i j = A j i)
    (unseen : Unseen L i x) {r : Fin n} (hr : r ≤ i) :
    (Matrix.of A.entry *ᵥ x) r = if r = i then pivotSquare A L i else 0 := by
  have term (c : Fin n) : A r c * x c =
      ∑ l with l < i, L r l * (L c l * x c) + if r = i ∧ c = i then pivotSquare A L i else 0 := by
    by_cases hc : c ≤ i
    · rw [h.entry_eq symmetric hr hc, add_mul, sum_mul]
      congr 1
      · exact sum_congr rfl fun l _ => mul_assoc ..
      · split
        · rename_i last
          rw [last.2, unseen.one, mul_one]
        · exact zero_mul _
    · have other : ¬ (r = i ∧ c = i) := fun both => hc both.2.le
      simp [unseen.behind c (not_le.mp hc), other]
  -- With the sum over `c` inside, every product is one of a column with the vector.
  calc (Matrix.of A.entry *ᵥ x) r
    _ = ∑ c, A r c * x c := rfl
    _ = ∑ l with l < i, L r l * ∑ c, L c l * x c +
        ∑ c, if r = i ∧ c = i then pivotSquare A L i else 0 := by
      simp only [term, sum_add_distrib, mul_sum]
      rw [sum_comm]
    _ = if r = i then pivotSquare A L i else 0 := by
      have none : ∑ l with l < i, L r l * ∑ c, L c l * x c = 0 := sum_eq_zero fun l hl => by
        rw [unseen.columns l (mem_filter.mp hl).2, mul_zero]
      rw [none, zero_add]
      by_cases last : r = i
      · simp [last]
      · simp [last]

/-- At such a vector the pivot is the value of the form. -/
theorem Factors.form_eq (h : Factors A i i L) (symmetric : ∀ i j, A i j = A j i)
    (unseen : Unseen L i x) : x ⬝ᵥ Matrix.of A.entry *ᵥ x = pivotSquare A L i := by
  have term (r : Fin n) :
      x r * (Matrix.of A.entry *ᵥ x) r = if r = i then pivotSquare A L i else 0 := by
    by_cases hr : r ≤ i
    · rw [h.mulVec_eq symmetric unseen hr]
      split
      · rename_i last
        rw [last, unseen.one, one_mul]
      · exact mul_zero _
    · rw [unseen.behind r (not_le.mp hr), zero_mul, if_neg fun same => hr same.le]
  rw [dotProduct, sum_congr rfl fun r _ => term r, sum_ite_eq' univ i, if_pos (mem_univ i)]

/-- The columns of the factor found before row `i`, as rows, filled up with those of the unit
matrix. -/
def foundColumns (L : Dense K n n) (i : Fin n) : Dense K n n :=
  .of fun l c => if l < i then L c l else if l = c then 1 else 0

theorem foundColumns_of_lt {l : Fin n} (h : l < i) (c : Fin n) : foundColumns L i l c = L c l := by
  simp [foundColumns, h]

theorem foundColumns_of_ge {l : Fin n} (h : i ≤ l) (c : Fin n) :
    foundColumns L i l c = if l = c then 1 else 0 := by
  simp [foundColumns, h.not_gt]

variable [LinearOrder K] [IsStrictOrderedRing K]

/-- There is such a vector: a back substitution finds it, since the columns found so far are the
rows of an upper triangular system. -/
theorem exists_unseen (above : ∀ r c, r < c → L r c = 0) (diagonal : ∀ l < i, ¬ IsTiny (L l l)) :
    ∃ x, Unseen L i x := by
  have upper (l c : Fin n) (left : c < l) : foundColumns L i l c = 0 := by
    rcases lt_or_ge l i with found | unit
    · rw [foundColumns_of_lt found, above c l left]
    · rw [foundColumns_of_ge unit, if_neg left.ne']
  have pivots (l : Fin n) : ¬ IsTiny (foundColumns L i l l) := by
    rcases lt_or_ge l i with found | unit
    · rw [foundColumns_of_lt found]
      exact diagonal l found
    · rw [foundColumns_of_ge unit, if_pos rfl]
      exact UnitLaws.not_isTiny_one
  have solved : backSubstitute (foundColumns L i) (.ofFn (Pi.single i 1)) = .ok _ :=
    backSubstitute_eq_ok_iff.mpr ⟨pivots, rfl⟩
  have solves := (solves_backSubstitute upper solved).mpr rfl
  generalize (solveUpper (foundColumns L i) (.ofFn (Pi.single i 1))).get = x at solves
  simp only [Solves, get_ofFn] at solves
  -- The rows of the unit matrix give the entries from `i` on.
  have entry (l : Fin n) (unit : i ≤ l) : x l = (Pi.single i 1 : Fin n → K) l := by
    rw [← solves l]
    simp [foundColumns_of_ge unit]
  refine ⟨x, ?_, fun c right => ?_, fun l found => ?_⟩
  · rw [entry i le_rfl, Pi.single_eq_same]
  · rw [entry c right.le, Pi.single_eq_of_ne right.ne']
  · have row := solves l
    rw [Pi.single_eq_of_ne found.ne] at row
    simpa only [foundColumns_of_lt found] using row

variable [SquareRoot K]

/-- Every pivot that the factorization of a symmetric matrix comes to is a value of its quadratic
form, at a vector with a one in the row of the pivot. -/
theorem exists_form_eq_pivot (roots : ExactRoots K) (symmetric : ∀ i j, A i j = A j i)
    (comes : ComesTo A i i L) :
    ∃ x : Fin n → K, x i = 1 ∧ x ⬝ᵥ Matrix.of A.entry *ᵥ x = pivotSquare A L i := by
  have factors : Factors A i i L := (loopInvariant_factors roots A).of_comesTo comes
  have diagonal : KeepsDiagonal i i L := ((loopInvariant_rootsOnDiagonal A).of_comesTo
    comes).keepsDiagonal fun _ => not_isTiny_squareRoot roots
  obtain ⟨x, unseen⟩ := exists_unseen factors.upper fun l hl => diagonal l (.inl hl)
  exact ⟨x, unseen.one, factors.form_eq symmetric unseen⟩

/-- A symmetric matrix whose form stays above the threshold of a pivot has a factor. -/
theorem exists_cholesky_of_form (roots : ExactRoots K) (symmetric : ∀ i j, A i j = A j i)
    (large : ∀ x : Fin n → K, x ≠ 0 → 1e-10 * (x ⬝ᵥ x) < x ⬝ᵥ Matrix.of A.entry *ᵥ x) :
    ∃ L, cholesky A = .ok L := by
  match factored : cholesky A with
  | .ok L => exact ⟨L, rfl⟩
  | .error cause =>
    have positive := notPositive_of_cholesky (isSymmetric_of_symmetric symmetric) factored
    subst positive
    -- Then the loops came to a pivot that is too small, which is a value of the form.
    obtain asymmetric | ⟨i, L, comes, small⟩ :=
      (choleskyKeepsShape (fun _ => not_isTiny_squareRoot roots) A (zeros n)).refused _ factored
    · cases asymmetric
    · rw [sumWhere_eq] at small
      obtain ⟨x, one, form⟩ := exists_form_eq_pivot roots symmetric comes
      have nonzero : x ≠ 0 := by
        rintro rfl
        exact zero_ne_one one
      -- The vector is at least as long as its entry in row `i`.
      have long : 1 ≤ x ⬝ᵥ x := by
        calc (1 : K) = x i * x i := by rw [one, one_mul]
          _ ≤ x ⬝ᵥ x := single_le_sum (fun j _ => mul_self_nonneg (x j)) (mem_univ i)
      have absurdly : (1e-10 : K) < 1e-10 :=
        calc (1e-10 : K)
          _ ≤ 1e-10 * (x ⬝ᵥ x) := le_mul_of_one_le_right (by norm_num) long
          _ < x ⬝ᵥ Matrix.of A.entry *ᵥ x := large x nonzero
          _ = pivotSquare A L i := form
          _ ≤ 1e-10 := small
      exact absurd absurdly (lt_irrefl _)

end

/-! ## Real matrices -/

/-- The root of an accepted square is above `1e-5`. -/
theorem lt_squareRoot {v : ℝ} (h : ¬ v ≤ symmetryTolerance) : 1e-5 < squareRoot v := by
  have large : (1e-10 : ℝ) < v := not_le.mp h
  refine Real.lt_sqrt_of_sq_lt (lt_of_eq_of_lt ?_ large)
  norm_num

theorem lt_diagonal_of_cholesky {A L : Dense ℝ n n} (factored : cholesky A = .ok L) (i : Fin n) :
    1e-5 < L i i := by
  obtain ⟨v, large, root⟩ := root_of_cholesky factored i
  rw [root]
  exact lt_squareRoot large

/-- A symmetric matrix that has a factor is positive definite. -/
theorem posDef_of_cholesky {A L : Dense ℝ n n} (symmetric : ∀ i j, A i j = A j i)
    (factored : cholesky A = .ok L) : (Matrix.of A.entry).PosDef := by
  have factors := factors_of_cholesky exactRoots_real factored
  have product : Matrix.of A.entry = Matrix.of L.entry * (Matrix.of L.entry)ᴴ := by
    ext i j
    rw [Matrix.mul_apply]
    exact (factors.mul_transpose symmetric i j).symm
  have lower : (Matrix.of L.entry).IsLowerTriangular := fun i j right => factors.upper i j right
  have invertible : IsUnit (Matrix.of L.entry) := by
    rw [Matrix.isUnit_iff_isUnit_det, isUnit_iff_ne_zero, Matrix.det_of_isLowerTriangular _ lower]
    refine prod_ne_zero_iff.mpr fun i _ => ?_
    exact (lt_trans (by norm_num) (lt_diagonal_of_cholesky factored i)).ne'
  -- The transpose of the factor takes no vector but zero to zero.
  rw [product]
  exact .mul_conjTranspose_self _ (Matrix.vecMul_injective_iff_isUnit.mpr invertible)

/-- **The factor of a symmetric matrix.** Where the factorization of a real matrix that counts as
symmetric finds a factor, it is lower triangular with a diagonal above `1e-5`, and its product with
its transpose is the matrix in the lower triangle. Another matrix that counts as symmetric and has
the same lower triangle comes to the same factor or the same refusal. -/
theorem cholesky_product (A : Dense ℝ n n) (accepted : isSymmetric A symmetryTolerance = true) :
    (∀ L, cholesky A = .ok L → (∀ i j, i < j → L i j = 0) ∧ (∀ i, 1e-5 < L i i) ∧
      ∀ i j, j ≤ i → (Matrix.of L.entry * (Matrix.of L.entry)ᵀ) i j = A i j) ∧
    ∀ B, isSymmetric B symmetryTolerance = true → (∀ i j, j ≤ i → A i j = B i j) →
      cholesky A = cholesky B := by
  constructor
  · intro L factored
    refine ⟨above_of_cholesky factored, lt_diagonal_of_cholesky factored, fun i j left => ?_⟩
    rw [Matrix.mul_apply]
    exact (factors_of_cholesky exactRoots_real factored).mul_transpose_lower left
  · intro B accepted' same
    exact cholesky_congr accepted accepted' same

/-- A symmetric matrix with `1e-11` added above the diagonal. -/
noncomputable def nearlySymmetric : Dense ℝ 2 2 :=
  .of fun i j => symmetricSystem.matrix i j + if i < j then 1e-11 else 0

theorem cholesky_product_nearlySymmetric : isSymmetric nearlySymmetric symmetryTolerance = true ∧
    ∃ L, cholesky nearlySymmetric = .ok L ∧ cholesky symmetricSystem.matrix = .ok L ∧
      1e-5 < L 1 1 ∧ (Matrix.of L.entry * (Matrix.of L.entry)ᵀ) 1 0 = 1 := by
  have accepted : isSymmetric nearlySymmetric symmetryTolerance = true := by
    refine (isSymmetric_eq_true_iff ..).mpr fun i j => ?_
    change |nearlySymmetric i j - nearlySymmetric j i| ≤ 1e-10
    fin_cases i <;> fin_cases j <;> norm_num [nearlySymmetric, symmetricSystem]
  have same (i j : Fin 2) (left : j ≤ i) : nearlySymmetric i j = symmetricSystem.matrix i j := by
    simp [nearlySymmetric, left.not_gt]
  obtain ⟨L, factored, -⟩ := cholesky_symmetricSystem
  obtain ⟨found, others⟩ := cholesky_product nearlySymmetric accepted
  have factored' : cholesky nearlySymmetric = .ok L :=
    (others _ (isSymmetric_of_symmetric symmetricSystem_symmetric) same).trans factored
  obtain ⟨-, diagonal, product⟩ := found L factored'
  refine ⟨accepted, L, factored', factored, diagonal 1, (product 1 0 (by decide)).trans ?_⟩
  simp [nearlySymmetric, symmetricSystem]

/-- **The verdict on symmetric matrices.** A real symmetric matrix that is not positive definite is
refused, for a pivot that is not positive. One whose quadratic form exceeds `1e-10` times the square
of the length of every vector has a factor. -/
theorem cholesky_verdict (A : Dense ℝ n n) (symmetric : ∀ i j, A i j = A j i) :
    (¬ (Matrix.of A.entry).PosDef → cholesky A = .error .notPositive) ∧
    ((∀ x : Fin n → ℝ, x ≠ 0 → 1e-10 * (x ⬝ᵥ x) < x ⬝ᵥ Matrix.of A.entry *ᵥ x) →
      ∃ L, cholesky A = .ok L) := by
  refine ⟨fun indefinite => ?_, exists_cholesky_of_form exactRoots_real symmetric⟩
  match factored : cholesky A with
  | .ok L => exact absurd (posDef_of_cholesky symmetric factored) indefinite
  | .error cause => rw [notPositive_of_cholesky (isSymmetric_of_symmetric symmetric) factored]

/-- The matrix with one number on its diagonal and another one off it. -/
noncomputable def diagonalAndRest (d e : ℝ) : Dense ℝ 2 2 := .of fun i j => if i = j then d else e

theorem diagonalAndRest_symmetric (d e : ℝ) (i j : Fin 2) :
    diagonalAndRest d e i j = diagonalAndRest d e j i := by
  simp [diagonalAndRest, eq_comm]

theorem form_diagonalAndRest (d e : ℝ) (x : Fin 2 → ℝ) :
    x ⬝ᵥ Matrix.of (diagonalAndRest d e).entry *ᵥ x = d * (x ⬝ᵥ x) + 2 * e * (x 0 * x 1) := by
  simp only [diagonalAndRest, dotProduct, Matrix.mulVec, Matrix.of_apply, Dense.of_apply,
    Fin.sum_univ_two, if_true, zero_ne_one, one_ne_zero, if_false]
  ring

/-- Twice the product of two numbers is too much for the sum of their squares, but the product
itself is not. -/
theorem cholesky_verdict_diagonalAndRest :
    ¬ (Matrix.of (diagonalAndRest 1 2).entry).PosDef ∧
    cholesky (diagonalAndRest 1 2) = .error .notPositive ∧
    ∃ L, cholesky (diagonalAndRest 2 1) = .ok L := by
  have indefinite : ¬ (Matrix.of (diagonalAndRest 1 2).entry).PosDef := by
    intro definite
    have positive := definite.dotProduct_mulVec_pos (x := ![1, -1]) (by simp)
    rw [star_trivial, form_diagonalAndRest] at positive
    norm_num [dotProduct] at positive
  refine ⟨indefinite, (cholesky_verdict _ (diagonalAndRest_symmetric 1 2)).1 indefinite,
    (cholesky_verdict _ (diagonalAndRest_symmetric 2 1)).2 fun x nonzero => ?_⟩
  have long : 0 < x ⬝ᵥ x := by simpa using dotProduct_star_self_pos_iff.mpr nonzero
  have square : x ⬝ᵥ x = x 0 * x 0 + x 1 * x 1 := Fin.sum_univ_two _
  rw [form_diagonalAndRest]
  nlinarith [sq_nonneg (x 0 + x 1)]

end EquationSolver.Linear
