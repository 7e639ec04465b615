import EquationSolver.Proofs.Double.SquareRoot
import EquationSolver.Proofs.Linear.Direct

/-!
# The shape of what the direct methods find

A substitution refuses a triangular matrix with a diagonal entry that counts as zero. No direct
method ever gives it one: a pivot that a stage accepted stays on the diagonal through all later
exchanges, and the zeros below it stay zeros. This holds in any arithmetic, for matrices with
infinities and with entries that are no numbers among them, since the test by which a pivot is
accepted is the one by which a substitution refuses. The factor of a symmetric matrix asks for one
fact about square roots, and the lower factor for the laws of zero and one.

## Main definitions

* `Reduction.IsReduced`, `LU.IsTriangular`, `IsFactor`: the shapes
* `KeepsShape`, `CholeskyKeepsShape`: what a system has become when a direct method succeeds

## Main results

* `keepsShape`, `choleskyKeepsShape`: the shapes in any arithmetic, from its laws
* `direct_keepsShape`: the shapes of doubles and in exact arithmetic
-/

namespace EquationSolver.Linear

variable {α : Type} {n : Nat}

/-! ## The shapes -/

section

variable [Zero α] [LT α] [OfScientific α] [Scalar α]

/-- The shape of a reduced system. -/
structure Reduction.IsReduced (strategy : Pivoting) (R : Reduction α n) : Prop where
  /-- Every entry below the diagonal is zero. -/
  below : ∀ i j, j < i → R.matrix i j = 0
  /-- No entry on the diagonal counts as zero. -/
  diagonal : ∀ i, ¬ IsTiny (R.matrix i i)
  /-- Every unknown belongs to one column. -/
  order : Function.Bijective R.order.get
  /-- Only full pivoting moves unknowns. -/
  unmoved : strategy ≠ .full → R.order.get = id

theorem isReduced_of_reduce [Sub α] [Mul α] [Div α] [LE α] [DecidableLE α] [DecidableLT α]
    {strategy : Pivoting} {A : Dense α n n} {b : Vector α n} {R : Reduction α n}
    (h : reduce strategy A b = .ok R) : R.IsReduced strategy := by
  have shape := Reduction.reduced_of_stages h
  exact {
    below := fun i j => shape.cleared i j j.isLt
    diagonal := fun i => shape.diagonal i i.isLt
    order := Finite.injective_iff_bijective.mp shape.order
    unmoved := fun notFull => Reduction.order_of_stages notFull h }

/-- The shape of the factors of a matrix. -/
structure LU.IsTriangular [One α] (F : LU α n) : Prop where
  /-- Every entry of the lower factor above the diagonal is zero. -/
  above : ∀ i j, i < j → F.lower i j = 0
  /-- Every entry of the lower factor on the diagonal is one. -/
  unit : ∀ i, F.lower i i = 1
  /-- Every entry of the upper factor below the diagonal is zero. -/
  below : ∀ i j, j < i → F.upper i j = 0
  /-- No entry of the upper factor on the diagonal counts as zero. -/
  diagonal : ∀ i, ¬ IsTiny (F.upper i i)
  /-- Every row of the matrix is one row of the product. -/
  order : Function.Bijective F.order.get

/-- The shape of the factor of a symmetric matrix. -/
structure IsFactor (L : Dense α n n) : Prop where
  /-- Every entry above the diagonal is zero. -/
  above : ∀ i j, i < j → L i j = 0
  /-- No entry on the diagonal counts as zero. -/
  diagonal : ∀ i, ¬ IsTiny (L i i)

end

section

variable [Add α] [Sub α] [Mul α] [Div α] [Zero α] [LE α] [DecidableLE α] [LT α] [DecidableLT α]
  [OfScientific α] [Scalar α]

/-- What a system has become when an elimination or a factorization succeeds. -/
structure KeepsShape [One α] (A : Dense α n n) (b : Vector α n) : Prop where
  /-- A reduced system has its shape, and the back substitution solves it. -/
  reduced : ∀ strategy R, reduce strategy A b = .ok R → R.IsReduced strategy ∧
    ∃ y, backSubstitute R.matrix R.rhs = .ok y ∧ gaussSolve strategy A b = .ok (scatter R.order y)
  /-- The factors have their shape, and both substitutions solve their systems. -/
  factored : ∀ F, factorize A = .ok F → F.IsTriangular ∧
    ∃ y x, forwardSubstitute F.lower (.ofFn (b.get ∘ F.order.get)) = .ok y ∧
      backSubstitute F.upper y = .ok x ∧ luSolve A b = .ok x

/-- What becomes of a system that the factorization of its symmetric matrix is to solve. -/
structure CholeskyKeepsShape [SquareRoot α] (A : Dense α n n) (b : Vector α n) : Prop where
  /-- The factor has its shape, and both substitutions solve their systems. -/
  factored : ∀ L, cholesky A = .ok L → IsFactor L ∧
    ∃ y x, forwardSubstitute L b = .ok y ∧ backSubstituteTransposed L y = .ok x ∧
      choleskySolve A b = .ok x
  /-- No entry is to be divided by one that counts as zero. -/
  divisor : ∀ i j L, ComesTo A i j L → j < i → ¬ IsTiny (L j j)
  /-- A symmetric matrix is refused on its diagonal, where a square is too small. -/
  refused : ∀ cause, cholesky A = .error cause → cause = .asymmetric ∨
    ∃ i L, ComesTo A i i L ∧
      A i i - sumWhere (· < i) (fun k => L i k * L i k) ≤ symmetryTolerance
  /-- A system is not refused as singular. -/
  nonsingular : ∀ cause, choleskySolve A b ≠ .error (.singular cause)

/-! ## What the methods find -/

variable {A : Dense α n n} {b : Vector α n}

theorem isTriangular_of_factorize [One α] [UnitLaws α] {F : LU α n} (h : factorize A = .ok F) :
    F.IsTriangular where
  above _ _ := lower_eq_zero h
  unit := lower_self h
  below _ _ := upper_eq_zero h
  diagonal := not_isTiny_upper h
  order := order_bijective h

/-- In any arithmetic the eliminations and the factorization keep the shape. -/
theorem keepsShape [One α] [UnitLaws α] (A : Dense α n n) (b : Vector α n) : KeepsShape A b where
  reduced strategy R reduced := by
    obtain ⟨y, solved⟩ := exists_backSubstitute reduced
    exact ⟨isReduced_of_reduce reduced, y, solved,
      gaussSolve_eq_ok_iff.mpr ⟨R, y, reduced, solved, rfl⟩⟩
  factored F factored := by
    have shape := isTriangular_of_factorize factored
    obtain ⟨y, forward⟩ := exists_forwardSubstitute factored (.ofFn (b.get ∘ F.order.get))
    have back : backSubstitute F.upper y = .ok (solveUpper F.upper y) :=
      backSubstitute_eq_ok_iff.mpr ⟨shape.diagonal, rfl⟩
    exact ⟨shape, y, _, forward, back, luSolve_eq_ok_iff.mpr ⟨F, y, factored, forward, back⟩⟩

section

variable [SquareRoot α]

/-- What is refused on the way is refused on the diagonal, if no divisor counts as zero. -/
theorem small_of_choleskyStage {i j : Fin n} {L : Dense α n n} {cause : Indefinite}
    (divisor : j ≠ i → ¬ IsTiny (L j j)) (h : choleskyStage A i j L = .error cause) :
    j = i ∧ A i i - sumWhere (· < i) (fun k => L i k * L i k) ≤ symmetryTolerance := by
  obtain ⟨-, small | ⟨other, tiny⟩⟩ :=
    choleskyEntry_eq_error_iff.mp (choleskyStage_eq_error_iff.mp h)
  · exact ⟨small.1.symm, small.2⟩
  · exact absurd tiny (divisor (Ne.symm other))

/-- In an arithmetic in which the root of an accepted square is no zero, the factorization of a
symmetric matrix keeps the shape. -/
theorem choleskyKeepsShape (roots : ∀ v : α, ¬ v ≤ symmetryTolerance → ¬ IsTiny (squareRoot v))
    (A : Dense α n n) (b : Vector α n) : CholeskyKeepsShape A b := by
  have divisor (i j : Fin n) (L : Dense α n n) (comes : ComesTo A i j L) (before : j < i) :
      ¬ IsTiny (L j j) :=
    ((loopInvariant_rootsOnDiagonal A).of_comesTo comes).keepsDiagonal roots j (.inl before)
  refine ⟨fun L factored => ?_, divisor, fun cause refused => ?_,
    choleskySolve_ne_singular roots A b⟩
  · have diagonal := not_isTiny_of_cholesky roots factored
    exact ⟨⟨above_of_cholesky factored, diagonal⟩, exists_choleskySolve factored diagonal b⟩
  · by_cases accepted : isSymmetric A symmetryTolerance
    · obtain ⟨i, j, L, comes, stopped⟩ := exists_comesTo_of_error accepted refused
      obtain ⟨rfl, small⟩ := small_of_choleskyStage
        (fun other => divisor i j L comes (lt_of_le_of_ne comes.1 other)) stopped
      exact .inr ⟨j, L, comes, small⟩
    · rw [cholesky, if_neg accepted] at refused
      exact .inl (Except.error.inj refused).symm

end

end

/-! ## Doubles and exact arithmetic -/

instance unitLaws_float : UnitLaws Float where
  zero_add_zero := by decide +kernel
  zero_add_one := by decide +kernel
  not_isTiny_one := by decide +kernel

/-- The root of a number that passes the test of a diagonal entry is far from zero. -/
theorem not_isTiny_squareRoot {K : Type} [Field K] [LinearOrder K] [IsStrictOrderedRing K]
    [SquareRoot K] (roots : ExactRoots K) {v : K} (h : ¬ v ≤ symmetryTolerance) :
    ¬ IsTiny (squareRoot v) := by
  have large : (1e-10 : K) < v := not_le.mp h
  have square : |squareRoot v| * |squareRoot v| = v := by
    rw [abs_mul_abs_self]
    exact roots v (lt_trans (by norm_num) large)
  intro tiny
  have tiny : |squareRoot v| < 1e-12 := tiny
  have small : |squareRoot v| * |squareRoot v| ≤ 1e-12 * 1e-12 :=
    mul_le_mul tiny.le tiny.le (abs_nonneg _) (by norm_num)
  rw [square] at small
  have gap : (1e-12 * 1e-12 : K) < 1e-10 := by norm_num
  exact absurd (large.trans_le small) gap.not_gt

/-- **The shape of what the direct methods find.** For doubles, whatever the entries of a system,
and over every ordered field: a reduced system has zeros below its diagonal, the factors of a matrix
are triangular with ones on the diagonal of the lower one, the factor of a symmetric matrix is lower
triangular, and no pivot counts as zero. The rows and the unknowns are in an order that loses none.
The substitutions behind a direct method therefore never fail, and the factorization of a symmetric
matrix neither meets a divisor that counts as zero nor ends in a singular matrix. -/
theorem direct_keepsShape :
    (∀ {n : Nat} (A : Dense Float n n) (b : Vector Float n),
      KeepsShape A b ∧ CholeskyKeepsShape A b) ∧
    (∀ {K : Type} [Field K] [LinearOrder K] [IsStrictOrderedRing K] {n : Nat} (A : Dense K n n)
      (b : Vector K n), KeepsShape A b) ∧
    ∀ {K : Type} [Field K] [LinearOrder K] [IsStrictOrderedRing K] [SquareRoot K],
      ExactRoots K → ∀ {n : Nat} (A : Dense K n n) (b : Vector K n), CholeskyKeepsShape A b :=
  ⟨fun A b => ⟨keepsShape A b, choleskyKeepsShape (fun _ => Double.not_isTiny_sqrt) A b⟩,
    keepsShape, fun roots => choleskyKeepsShape fun _ => not_isTiny_squareRoot roots⟩

/-- A system with an entry that is no number and one that is not finite. -/
def notNumbers : Dense Float 2 2 × Vector Float 2 := (⟨#v[#v[0 / 0, 1], #v[1, 1 / 0]]⟩, #v[1, 2])

/-- Doubles that are no numbers under full pivoting, and a symmetric matrix of real numbers. -/
theorem direct_keepsShape_notNumbers :
    (∃ R : Reduction Float 2, reduce .full notNumbers.1 notNumbers.2 = .ok R ∧
      R.IsReduced .full ∧ ∃ x, gaussSolve .full notNumbers.1 notNumbers.2 = .ok x) ∧
    ∃ L, cholesky symmetricSystem.matrix = .ok L ∧ IsFactor L := by
  have solved : (reduce .full notNumbers.1 notNumbers.2).toOption.isSome = true := by
    decide +kernel
  obtain ⟨L, factored, -⟩ := cholesky_symmetricSystem
  have factor := direct_keepsShape.2.2 exactRoots_real symmetricSystem.matrix symmetricSystem.rhs
  match reduced : reduce .full notNumbers.1 notNumbers.2 with
  | .error e => rw [reduced] at solved; cases solved
  | .ok R =>
    obtain ⟨shape, y, -, gauss⟩ :=
      (direct_keepsShape.1 notNumbers.1 notNumbers.2).1.reduced .full R reduced
    exact ⟨⟨R, rfl, shape, _, gauss⟩, L, factored, (factor.factored L factored).1⟩

end EquationSolver.Linear
