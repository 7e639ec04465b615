import EquationSolver.Linear.Elimination

/-!
# Factorization into triangular matrices

A square matrix with its rows in some order is the product of a lower triangular matrix with ones on
its diagonal and an upper triangular one. Both are found in one matrix: stage `k` leaves the
multipliers of column `k` below the diagonal, where they travel with their rows.

## Main definitions

* `Factoring`, `Factoring.stage`: a partly factored matrix, and one stage
* `LU`, `factorize`: the two factors with the order of the rows
* `luSolve`: the solution of a system from the factors of its matrix
-/

namespace EquationSolver.Linear

variable {α : Type} {n : Nat}

/-- A partly factored matrix. -/
structure Factoring (α : Type) (n : Nat) where
  /-- The multipliers below the diagonal, in the columns done, and the reduced matrix elsewhere. -/
  combined : Dense α n n
  /-- The row of the given matrix that each row comes from. -/
  order : Vector (Fin n) n
  /-- The exchanges that were made, in order. -/
  exchanges : List Exchange

/-- The factors of a matrix. -/
structure LU (α : Type) (n : Nat) where
  /-- The lower triangular factor, with ones on its diagonal. -/
  lower : Dense α n n
  /-- The upper triangular factor. -/
  upper : Dense α n n
  /-- The row of the given matrix that each row of the product is. -/
  order : Vector (Fin n) n

namespace Factoring

/-- A matrix before its first stage. -/
def start (A : Dense α n n) : Factoring α n := ⟨A, .ofFn id, []⟩

/-- The matrix with row `p` brought to the diagonal. -/
def bring (F : Factoring α n) (k p : Fin n) : Factoring α n where
  combined := F.combined.exchangeRows k p
  order := exchangeEntries F.order k p
  exchanges := F.exchanges ++ exchangesAt k p k

section

variable [Sub α] [Mul α] [Div α]

/-- The multiple of row `k` that is taken from row `i`. -/
def factor (F : Factoring α n) (k i : Fin n) : α := F.combined i k / F.combined k k

/-- The matrix with the multipliers of column `k` in place and the rows below reduced. -/
def divide (F : Factoring α n) (k : Fin n) : Factoring α n :=
  { F with
    combined := .of fun i j =>
      if k < i then
        if j < k then F.combined i j
        else if j = k then F.factor k i
        else F.combined i j - F.factor k i * F.combined k j
      else F.combined i j }

variable [LE α] [DecidableLE α] [LT α] [DecidableLT α] [OfScientific α] [Scalar α]

/-- Stage `k` of a factorization. Rows are exchanged only if the diagonal entry counts as zero. -/
def stage (k : Fin n) (F : Factoring α n) : Except (Breakdown (Factoring α n)) (Factoring α n) :=
  let (p, _) := Pivoting.natural.pivot F.combined k
  if IsTiny (F.combined p k) then .error ⟨k, F⟩ else .ok ((F.bring k p).divide k)

end

variable [Add α] [Zero α] [One α]

/-- The factors that a fully factored matrix holds. The entries below the diagonal are added to
zeros, which leaves none of them a negative zero. -/
def factors (F : Factoring α n) : LU α n where
  lower := .of fun i j => (if j < i then F.combined i j else 0) + (if i = j then 1 else 0)
  upper := .of fun i j => if i ≤ j then F.combined i j else 0
  order := F.order

end Factoring

variable [Add α] [Sub α] [Mul α] [Div α] [Zero α] [One α] [LE α] [DecidableLE α] [LT α]
  [DecidableLT α] [OfScientific α] [Scalar α]

/-- The fully factored form of a matrix. -/
def factorStages (A : Dense α n n) : Except (Breakdown (Factoring α n)) (Factoring α n) :=
  stages Factoring.stage (.start A) n (Nat.le_refl n)

/-- The factors of a matrix. -/
def factorize (A : Dense α n n) : Except Singularity (LU α n) :=
  match factorStages A with
  | .error e => .error (.factor e.step)
  | .ok F => .ok F.factors

/-- The solution of a system: the right-hand side in the order of the rows, then both triangular
systems. -/
def luSolve (A : Dense α n n) (b : Vector α n) : Except Singularity (Vector α n) := do
  let F ← factorize A
  let y ← forwardSubstitute F.lower (.ofFn fun i => b.get (F.order.get i))
  backSubstitute F.upper y

end EquationSolver.Linear
