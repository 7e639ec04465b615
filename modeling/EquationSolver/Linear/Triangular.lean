import EquationSolver.Linear.Dense

/-!
# Triangular systems

A system with a triangular matrix is solved one unknown after the other. Only the triangle in
question is read. The solve is refused when a diagonal entry counts as zero.

## Main definitions

* `forwardSubstitute`, `backSubstitute`, `backSubstituteTransposed`: the solution of a lower
  triangular system, of an upper triangular one, and of the transpose of a lower triangular one
* `Singularity`: why a system counts as singular
-/

namespace EquationSolver.Linear

/-- How the pivot of an elimination is chosen. -/
inductive Pivoting where
  /-- The diagonal entry, unless it counts as zero. -/
  | natural
  /-- The largest entry of the column. -/
  | column
  /-- The largest entry of the remaining rows and columns. -/
  | full
  deriving DecidableEq

namespace Pivoting

/-- All strategies. -/
def all : List Pivoting := [natural, column, full]

/-- The name of a strategy. -/
def name : Pivoting → String
  | natural => "none"
  | column => "partial"
  | full => "full"

/-- The strategy with the given name. -/
def ofName? (s : String) : Option Pivoting := all.find? fun p => p.name = s

theorem ofName?_name (p : Pivoting) : ofName? p.name = some p := by cases p <;> decide

end Pivoting

/-- Why a system counts as singular. -/
inductive Singularity where
  /-- An elimination found no pivot. -/
  | pivot (strategy : Pivoting) (step : Nat)
  /-- A factorization found no pivot. -/
  | factor (step : Nat)
  /-- The diagonal of a lower triangular matrix has an entry that counts as zero. -/
  | forward
  /-- The diagonal of an upper triangular matrix has an entry that counts as zero. -/
  | backward
  /-- The diagonal of a transposed matrix has an entry that counts as zero. -/
  | transposed
  deriving DecidableEq

/-- The message of a cause. -/
def Singularity.message : Singularity → String
  | pivot strategy step => s!"pivot close to zero at step {step} ({strategy.name} pivoting)"
  | factor step => s!"pivot close to zero in LU factorization at step {step}"
  | forward => "pivot is zero during forward substitution"
  | backward => "pivot is zero during backward substitution"
  | transposed => "pivot is zero while solving L^T x = y"

variable {α : Type} {n : Nat}

/-- Whether a diagonal entry counts as zero. -/
def hasTinyDiagonal [LT α] [DecidableLT α] [OfScientific α] [Scalar α] (A : Dense α n n) : Bool :=
  (List.finRange n).any fun i => decide (IsTiny (A i i))

theorem hasTinyDiagonal_eq_true_iff [LT α] [DecidableLT α] [OfScientific α] [Scalar α]
    (A : Dense α n n) : hasTinyDiagonal A = true ↔ ∃ i, IsTiny (A i i) := by
  simp [hasTinyDiagonal]

variable [Add α] [Sub α] [Mul α] [Div α] [Zero α]

/-- The vector of zeros. -/
def zeros (n : Nat) : Vector α n := .replicate n 0

/-- The unknowns of a lower triangular system, from the first to the last. -/
def solveLower (L : Dense α n n) (b : Vector α n) : Vector α n :=
  Fin.foldl n
    (fun y i =>
      setEntry y i ((b.get i - sumWhere (· < i) fun j => L i j * y.get j) / L i i)) (zeros n)

/-- The unknowns of an upper triangular system, from the last to the first. -/
def solveUpper (U : Dense α n n) (b : Vector α n) : Vector α n :=
  Fin.foldl n
    (fun x k =>
      let i := k.rev
      setEntry x i ((b.get i - sumWhere (i < ·) fun j => U i j * x.get j) / U i i)) (zeros n)

/-- The unknowns of the transpose of a lower triangular system, from the last to the first. The part
of row `i` right of the diagonal is the part of column `i` below it. -/
def solveLowerTransposed (L : Dense α n n) (b : Vector α n) : Vector α n :=
  Fin.foldl n
    (fun x k =>
      let i := k.rev
      setEntry x i ((b.get i - sumWhere (i < ·) fun j => L j i * x.get j) / L i i)) (zeros n)

variable [LT α] [DecidableLT α] [OfScientific α] [Scalar α]

/-- The solution of a lower triangular system. -/
def forwardSubstitute (L : Dense α n n) (b : Vector α n) : Except Singularity (Vector α n) :=
  if hasTinyDiagonal L then .error .forward else .ok (solveLower L b)

/-- The solution of an upper triangular system. -/
def backSubstitute (U : Dense α n n) (b : Vector α n) : Except Singularity (Vector α n) :=
  if hasTinyDiagonal U then .error .backward else .ok (solveUpper U b)

/-- The solution of the transpose of a lower triangular system. -/
def backSubstituteTransposed (L : Dense α n n) (b : Vector α n) :
    Except Singularity (Vector α n) :=
  if hasTinyDiagonal L then .error .transposed else .ok (solveLowerTransposed L b)

end EquationSolver.Linear
