import EquationSolver.Linear.Stages
import EquationSolver.Linear.Triangular

/-!
# The factorization of a symmetric matrix

A symmetric positive definite matrix is the product of a lower triangular matrix with its transpose.
The factor is found row by row, from the lower triangle alone; the matrix is refused when it is not
symmetric or when the square of a diagonal entry is too small.

## Main definitions

* `isSymmetric`: symmetry within a tolerance
* `choleskyEntry`, `cholesky`: an entry of the factor, and the factor
* `choleskySolve`: the solution of a system from the factor of its matrix
-/

namespace EquationSolver.Linear

/-- Why a matrix does not count as symmetric and positive definite. -/
inductive Indefinite where
  /-- It is not symmetric. -/
  | asymmetric
  /-- A pivot is not positive. -/
  | notPositive
  deriving DecidableEq

/-- The message of a cause. -/
def Indefinite.message : Indefinite → String
  | asymmetric => "Matrix is not symmetric; Cholesky is not applicable."
  | notPositive => "Matrix is not positive definite; Cholesky is not applicable."

/-- Why a symmetric system was not solved. -/
inductive CholeskyFault where
  /-- Its matrix has no factor. -/
  | indefinite (cause : Indefinite)
  /-- Its factor counts as singular. -/
  | singular (cause : Singularity)
  deriving DecidableEq

variable {α : Type} {n : Nat}

/-- Two entries across the diagonal that differ by this much still count as symmetric, and squares
up to this size do not count as positive. -/
def symmetryTolerance [OfScientific α] : α := 1e-10

/-- Whether every entry is within a tolerance of the one across the diagonal. -/
def isSymmetric [Sub α] [LE α] [DecidableLE α] [Scalar α] (A : Dense α n n) (tol : α) : Bool :=
  (List.finRange n).all fun i =>
    (List.finRange n).all fun j => decide (modulus (A i j - A j i) ≤ tol)

theorem isSymmetric_eq_true_iff [Sub α] [LE α] [DecidableLE α] [Scalar α] (A : Dense α n n)
    (tol : α) : isSymmetric A tol = true ↔ ∀ i j, modulus (A i j - A j i) ≤ tol := by
  simp [isSymmetric]

variable [Add α] [Sub α] [Mul α] [Div α] [Zero α] [LE α] [DecidableLE α] [LT α] [DecidableLT α]
  [OfScientific α] [Scalar α] [SquareRoot α]

/-- The entry of the factor in row `i` and column `j`, from the entries before it. -/
def choleskyEntry (A L : Dense α n n) (i j : Fin n) : Except Indefinite α :=
  let s := sumWhere (· < j) fun k => L i k * L j k
  if i = j then
    if A i i - s ≤ symmetryTolerance then .error .notPositive else .ok (squareRoot (A i i - s))
  else if IsTiny (L j j) then .error .notPositive
  else .ok ((A i j - s) / L j j)

/-- The factor with the entry in row `i` and column `j` filled in. -/
def choleskyStage (A : Dense α n n) (i j : Fin n) (L : Dense α n n) :
    Except Indefinite (Dense α n n) :=
  (choleskyEntry A L i j).map (L.setEntry i j)

/-- The factor with row `i` filled in up to the diagonal. -/
def choleskyRow (A : Dense α n n) (i : Fin n) (L : Dense α n n) : Except Indefinite (Dense α n n) :=
  stages (choleskyStage A i) L (i + 1) i.isLt

/-- The factor of a matrix. -/
def cholesky (A : Dense α n n) : Except Indefinite (Dense α n n) :=
  if isSymmetric A symmetryTolerance then
    stages (choleskyRow A) (.of fun _ _ => 0) n (Nat.le_refl n)
  else .error .asymmetric

/-- The solution of a system with a symmetric matrix, from the factor and its transpose. -/
def choleskySolve (A : Dense α n n) (b : Vector α n) : Except CholeskyFault (Vector α n) :=
  match cholesky A with
  | .error cause => .error (.indefinite cause)
  | .ok L =>
    match forwardSubstitute L b with
    | .error cause => .error (.singular cause)
    | .ok y => (backSubstituteTransposed L y).mapError .singular

end EquationSolver.Linear
