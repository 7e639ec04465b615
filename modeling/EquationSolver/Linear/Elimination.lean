import EquationSolver.Linear.Stages
import EquationSolver.Linear.Triangular

/-!
# Elimination

A square system is reduced to an upper triangular one. Stage `k` chooses a pivot, brings it to the
diagonal by exchanging rows and, under full pivoting, columns, and clears the column below it. The
order of the unknowns is kept beside the reduced system, so that its solution can be put back.

## Main definitions

* `Pivoting.pivot`: the place of the pivot of a stage
* `Reduction`, `Reduction.stage`: a partly reduced system, and one stage
* `reduce`, `gaussSolve`: the reduced system, and the solution found from it
-/

namespace EquationSolver.Linear

/-- An exchange that was made, with the stage that made it. -/
inductive Exchange where
  /-- Of two rows. -/
  | rows (step first second : Nat)
  /-- Of two columns. -/
  | columns (step first second : Nat)
  deriving DecidableEq

variable {α : Type} {n : Nat}

/-! ## The choice of a pivot -/

section Pivot

variable [LE α] [DecidableLE α] [Scalar α]

/-- Whether a value takes the place of the largest one so far. A value that compares with nothing
does, and keeps its place. -/
def Beats (best x : α) : Prop := Scalar.isNaN best = false ∧ ¬ x ≤ best

instance (best x : α) : Decidable (Beats best x) := inferInstanceAs (Decidable (_ ∧ _))

/-- The first of some candidates whose value is largest. -/
def firstLargest {ι : Type} (value : ι → α) (start : ι) (candidates : List ι) : ι :=
  candidates.foldl (fun best i => if Beats (value best) (value i) then i else best) start

/-- The indices from `k` on. -/
def indicesFrom (k : Fin n) : List (Fin n) := (List.finRange n).filter (k ≤ ·)

/-- The row of the first largest entry of column `k`, from the diagonal down. -/
def largestInColumn (A : Dense α n n) (k : Fin n) : Fin n :=
  firstLargest (fun i => modulus (A i k)) k (indicesFrom k)

/-- The place of the first largest entry of the rows and columns from `k` on, by rows. -/
def largestFrom (A : Dense α n n) (k : Fin n) : Fin n × Fin n :=
  firstLargest (fun (i, j) => modulus (A i j)) (k, k)
    ((indicesFrom k).flatMap fun i => (indicesFrom k).map fun j => (i, j))

variable [LT α] [DecidableLT α] [OfScientific α]

/-- The row and the column of the pivot of stage `k`. -/
def Pivoting.pivot (strategy : Pivoting) (A : Dense α n n) (k : Fin n) : Fin n × Fin n :=
  match strategy with
  | natural => (if IsTiny (A k k) then largestInColumn A k else k, k)
  | column => (largestInColumn A k, k)
  | full => largestFrom A k

end Pivot

/-! ## The stages -/

/-- A partly reduced system. -/
structure Reduction (α : Type) (n : Nat) where
  /-- The matrix. -/
  matrix : Dense α n n
  /-- The right-hand side. -/
  rhs : Vector α n
  /-- The unknown that each column belongs to. -/
  order : Vector (Fin n) n
  /-- The exchanges that were made, in order. -/
  exchanges : List Exchange

/-- The exchanges of row `p` and column `q` with row and column `k`, where they differ. -/
def exchangesAt (k p q : Fin n) : List Exchange :=
  (if p = k then [] else [.rows k k p]) ++ (if q = k then [] else [.columns k k q])

namespace Reduction

/-- A system before its first stage. -/
def start (A : Dense α n n) (b : Vector α n) : Reduction α n := ⟨A, b, .ofFn id, []⟩

/-- The system with the pivot in row `p` and column `q` brought to the diagonal. -/
def bring (R : Reduction α n) (k p q : Fin n) : Reduction α n where
  matrix := (R.matrix.exchangeRows k p).exchangeColumns k q
  rhs := exchangeEntries R.rhs k p
  order := exchangeEntries R.order k q
  exchanges := R.exchanges ++ exchangesAt k p q

variable [Sub α] [Mul α] [Div α] [Zero α]

/-- The multiple of the pivot row that is taken from row `i`. -/
def factor (R : Reduction α n) (k i : Fin n) : α := R.matrix i k / R.matrix k k

/-- The system with column `k` cleared below the diagonal. -/
def clear (R : Reduction α n) (k : Fin n) : Reduction α n :=
  { R with
    matrix := .of fun i j =>
      if k < i then
        if j < k then R.matrix i j
        else if j = k then 0
        else R.matrix i j - R.factor k i * R.matrix k j
      else R.matrix i j
    rhs := .ofFn fun i =>
      if k < i then R.rhs.get i - R.factor k i * R.rhs.get k else R.rhs.get i }

variable [LE α] [DecidableLE α] [LT α] [DecidableLT α] [OfScientific α] [Scalar α]

/-- Stage `k` of an elimination. -/
def stage (strategy : Pivoting) (k : Fin n) (R : Reduction α n) :
    Except (Breakdown (Reduction α n)) (Reduction α n) :=
  let (p, q) := strategy.pivot R.matrix k
  if IsTiny (R.matrix p q) then .error ⟨k, R⟩ else .ok ((R.bring k p q).clear k)

end Reduction

section

variable [Add α] [Sub α] [Mul α] [Div α] [Zero α] [LE α] [DecidableLE α] [LT α] [DecidableLT α]
  [OfScientific α] [Scalar α]

/-- The reduced form of a system. -/
def reduce (strategy : Pivoting) (A : Dense α n n) (b : Vector α n) :
    Except (Breakdown (Reduction α n)) (Reduction α n) :=
  stages (Reduction.stage strategy) (.start A b) n (Nat.le_refl n)

/-- The vector whose entry at `order.get k` is `y.get k`. -/
def scatter (order : Vector (Fin n) n) (y : Vector α n) : Vector α n :=
  Fin.foldl n (fun x k => setEntry x (order.get k) (y.get k)) y

/-- The solution of a system by elimination and back substitution. -/
def gaussSolve (strategy : Pivoting) (A : Dense α n n) (b : Vector α n) :
    Except Singularity (Vector α n) :=
  match reduce strategy A b with
  | .error e => .error (.pivot strategy e.step)
  | .ok R => (backSubstitute R.matrix R.rhs).map (scatter R.order)

end

end EquationSolver.Linear
