import EquationSolver.Linear.Cholesky
import EquationSolver.Linear.Factorization
import EquationSolver.Linear.NestedArray
import EquationSolver.Linear.Stationary

/-!
# Routines on arrays of any shape

The routines are made for square systems. On other arrays they go as far as the shapes let them: a
routine stops where it reads a position that an array does not have, or where it joins rows of
different lengths, unless it has found the system singular before. Where nothing stops it, it has a
result. A table that is not square is worked on inside a square one that is filled up with zeros.
They are not taken for a pivot, because they come after the entries of the table and are not larger.

## Main definitions

* `Misfit`, `RoutineFault`: why a routine has no result
* `reduceArrays`, `gaussSolveArrays`, `factorizeArray`, `luSolveArrays`: elimination and
  factorization
* `NestedArray.isSymmetric`, `choleskyArray`, `choleskySolveArrays`: symmetric matrices
* `substituteArrays`: triangular systems
* `sweepArrays`: one sweep of a stationary method
-/

namespace EquationSolver.Linear

/-- How shapes stop a routine. -/
inductive Misfit where
  /-- It reads a position that an array does not have. -/
  | outOfRange
  /-- It joins rows of different lengths. -/
  | mismatch
  deriving DecidableEq

/-- Why a routine has no result. -/
inductive RoutineFault where
  /-- The shapes stop it. -/
  | misfit (cause : Misfit)
  /-- The system counts as singular. -/
  | singular (cause : Singularity)
  /-- The matrix does not count as symmetric and positive definite. -/
  | indefinite (cause : Indefinite)
  deriving DecidableEq

/-- What an array is as the matrix of a routine. -/
inductive Form where
  /-- The matrix without rows. -/
  | empty
  /-- A matrix with rows and columns. -/
  | table (rows columns : Nat)
  /-- No matrix: the first entry that is read stops the routine. -/
  | other (cause : Misfit)

namespace NestedArray

/-- What an array is as the matrix of a routine. -/
def form (a : NestedArray) : Form :=
  match a.shape with
  | [0] => .empty
  | [rows, columns] => .table rows columns
  | [] | [_] => .other .outOfRange
  | _ => .other .mismatch

/-- The upper left corner of size `n` of a table with the given number of columns. -/
def corner (a : NestedArray) (columns n : Nat) : Dense Float n n :=
  let entries := a.entries.toArray
  .of fun i j => entries.getD (i * columns + j) 0.0

/-- A table with zeros around it that make it square. -/
def padded (a : NestedArray) (rows columns : Nat) :
    Dense Float (max rows columns) (max rows columns) :=
  let entries := a.entries.toArray
  .of fun i j => if i < rows ∧ j < columns then entries.getD (i * columns + j) 0.0 else 0.0

end NestedArray

/-- The upper left table of a matrix. -/
def corners {n : Nat} (A : Dense Float n n) (rows columns : Nat) : List (List Float) :=
  (A.toLists.take rows).map (List.take columns)

/-! ## Elimination -/

/-- Whether an exchange of stage `k` needs an entry of the right-hand side or an unknown that does
not exist. There are as many unknowns as rows. -/
def Exchange.leaves (rows rhs k : Nat) : Exchange → Bool
  | .rows step _ second => step == k && decide (rhs ≤ second)
  | .columns step _ second => step == k && decide (rows ≤ second)

/-- How the shapes stop stage `k` of an elimination after its pivot is found. The multipliers of the
stage are joined to the rest of the right-hand side; a single multiplier serves for any rest. -/
def stageMisfit? (rows rhs : Nat) (exchanges : List Exchange) (k : Nat) : Option Misfit :=
  if exchanges.any (Exchange.leaves rows rhs k) || decide (rhs ≤ k) then some .outOfRange
  else if rhs ≠ rows ∧ rows ≠ k + 2 then some .mismatch
  else none

/-- How the shapes stop one of the first stages of an elimination. -/
def stagesMisfit? (rows rhs : Nat) (exchanges : List Exchange) (count : Nat) : Option Misfit :=
  (List.range count).findSome? (stageMisfit? rows rhs exchanges)

/-- The reduced form of a system that is given by arrays. -/
structure ReducedArrays where
  /-- The rows of the matrix. -/
  rows : List (List Float)
  /-- The right-hand side. -/
  rhs : List Float
  /-- The unknown that each column belongs to. -/
  order : List Nat

/-- The reduced form of a system. -/
def reduceArrays (strategy : Pivoting) (A b : NestedArray) : Except RoutineFault ReducedArrays :=
  match A.form with
  | .other cause => .error (.misfit cause)
  | .empty => .ok ⟨[], b.entries, []⟩
  | .table rows columns =>
    -- The shapes may stop a stage before the one at which no pivot is left.
    let misfit? := stagesMisfit? rows b.entries.length
    let start := Reduction.start (A.padded rows columns) (b.toVector (max rows columns))
    match stages (Reduction.stage strategy) start (min rows columns)
        (Nat.le_trans (Nat.min_le_left rows columns) (Nat.le_max_left rows columns)) with
    | .error e =>
      match misfit? e.reached.exchanges e.step with
      | some cause => .error (.misfit cause)
      | none => .error (.singular (.pivot strategy e.step))
    | .ok R =>
      match misfit? R.exchanges (min rows columns) with
      | some cause => .error (.misfit cause)
      | none =>
        -- A table with too few columns has no pivot to look for in the next stage.
        if columns < rows then
          .error (.misfit (if strategy = .full then .mismatch else .outOfRange))
        else
          .ok ⟨corners R.matrix rows columns, R.rhs.toList.take rows,
            (R.order.toList.take rows).map Fin.val⟩

/-- The solution of a system by elimination. The substitution joins a row to the unknowns, so it
stops at a table that is wider than high. -/
def gaussSolveArrays (strategy : Pivoting) (A b : NestedArray) :
    Except RoutineFault (List Float) :=
  match A.form with
  | .table rows columns =>
    if rows = columns ∧ b.entries.length = rows then
      ((gaussSolve strategy (A.corner rows rows) (b.toVector rows)).map Vector.toList).mapError
        .singular
    else do
      let _ ← reduceArrays strategy A b
      .error (.misfit .mismatch)
  | _ => (reduceArrays strategy A b).map fun _ => []

/-! ## Factorization -/

/-- The factors of a matrix that is given by an array. -/
structure FactorArrays where
  /-- The rows of the lower triangular factor. -/
  lower : List (List Float)
  /-- The rows of the upper triangular factor. -/
  upper : List (List Float)
  /-- The row of the given matrix that each row of the product is. -/
  order : List Nat

/-- The factors of a matrix. A single row is its own upper factor, and one serves for all entries of
the lower one; any other table that is wider than high does not fit its lower factor. -/
def factorizeArray (A : NestedArray) : Except RoutineFault FactorArrays :=
  match A.form with
  | .other cause => .error (.misfit cause)
  | .empty => .ok ⟨[], [], []⟩
  | .table rows columns =>
    let start := Factoring.start (A.padded rows columns)
    match stages Factoring.stage start (min rows columns)
        (Nat.le_trans (Nat.min_le_left rows columns) (Nat.le_max_left rows columns)) with
    | .error e => .error (.singular (.factor e.step))
    | .ok F =>
      if columns < rows then .error (.misfit .outOfRange)
      else if rows = columns then
        .ok ⟨F.factors.lower.toLists, F.factors.upper.toLists, F.factors.order.toList.map Fin.val⟩
      else if rows = 1 then .ok ⟨[.replicate columns 1.0], corners F.combined 1 columns, [0]⟩
      else .error (.misfit .mismatch)

/-- The solution of a system from the factors of its matrix. Entries of the right-hand side beyond
the matrix are left out. -/
def luSolveArrays (A b : NestedArray) : Except RoutineFault (List Float) :=
  match A.form with
  | .table rows columns => do
    let isShort := decide (b.entries.length < rows)
    if rows = columns then
      let x ← (luSolve (A.corner rows rows) (b.toVector rows)).mapError .singular
      if isShort then .error (.misfit .outOfRange) else return x.toList
    else
      let _ ← factorizeArray A
      .error (.misfit (if isShort then .outOfRange else .mismatch))
  | _ => (factorizeArray A).map fun _ => []

/-! ## Symmetric matrices -/

/-- The length of two rows that are joined: they are equally long, or one entry serves for all of
the other row. -/
def joinedLength? (m n : Nat) : Option Nat :=
  if m = n ∨ n = 1 then some m else if m = 1 then some n else none

/-- All positions in an array of the given shape. -/
def positions : (shape : List Nat) → List (List Nat)
  | [] => [[]]
  | n :: rest => (List.range n).flatMap fun i => (positions rest).map (i :: ·)

/-- The place of a position among the entries of an array of the given shape. A single entry serves
for every index. -/
def placeOf (shape position : List Nat) : Nat :=
  (shape.zip position).foldl (fun place (n, i) => place * n + if n = 1 then 0 else i) 0

/-- Whether every entry of an array is within a tolerance of the one with the indices reversed. -/
def NestedArray.isSymmetric (a : NestedArray) (tol : Float) : Except Misfit Bool :=
  match (a.shape.zip a.shape.reverse).mapM fun (m, n) => joinedLength? m n with
  | none => .error .mismatch
  | some shape =>
    let entries := a.entries.toArray
    let entry (position : List Nat) : Float := entries.getD (placeOf a.shape position) 0.0
    .ok ((positions shape).all fun p => decide (modulus (entry p - entry p.reverse) ≤ tol))

/-- The square matrix whose factor an array leads to. Only its own entries are read: of a single row
or column, this is the first. -/
def symmetricMatrix (A : NestedArray) :
    Except RoutineFault ((n : Nat) × Dense Float n n) := do
  if !(← (A.isSymmetric symmetryTolerance).mapError .misfit) then .error (.indefinite .asymmetric)
  else match A.form with
    | .other cause => .error (.misfit cause)
    | .empty => return ⟨0, A.corner 0 0⟩
    | .table rows columns =>
      if rows = columns then return ⟨rows, A.corner rows rows⟩
      else if columns = 0 then .error (.misfit .outOfRange)
      else if rows = 1 then return ⟨1, A.corner columns 1⟩
      else match cholesky (A.corner columns 1) with
        | .error cause => .error (.indefinite cause)
        | .ok _ => .error (.misfit .outOfRange)

/-- The factor of a symmetric matrix. -/
def choleskyArray (A : NestedArray) : Except RoutineFault (List (List Float)) := do
  let ⟨_, M⟩ ← symmetricMatrix A
  ((cholesky M).map Dense.toLists).mapError .indefinite

/-- The fault of a routine in a fault of the factorization of a symmetric matrix. -/
def CholeskyFault.routineFault : CholeskyFault → RoutineFault
  | indefinite cause => .indefinite cause
  | singular cause => .singular cause

/-- The solution of a system with a symmetric matrix. Entries of the right-hand side beyond the
matrix are left out. -/
def choleskySolveArrays (A b : NestedArray) : Except RoutineFault (List Float) := do
  let ⟨n, M⟩ ← symmetricMatrix A
  match choleskySolve M (b.toVector n) with
  | .error cause => .error cause.routineFault
  | .ok x => if b.entries.length < n then .error (.misfit .outOfRange) else return x.toList

/-! ## Triangular systems -/

/-- The ways to solve a triangular system. -/
inductive Substitution where
  /-- From the first unknown of a lower triangular system. -/
  | forward
  /-- From the last unknown of an upper triangular system. -/
  | backward
  /-- From the last unknown of the transpose of a lower triangular system. -/
  | transposed
  deriving DecidableEq

namespace Substitution

/-- The rows in the order in which they are solved. -/
def visits (s : Substitution) (rows : Nat) : List Nat :=
  if s = .forward then List.range rows else (List.range rows).reverse

/-- The cause of a diagonal entry that counts as zero. -/
def cause : Substitution → Singularity
  | forward => .forward
  | backward => .backward
  | transposed => .transposed

/-- The solution of a square system. -/
def solve {n : Nat} : Substitution → Dense Float n n → Vector Float n →
    Except Singularity (Vector Float n)
  | forward => forwardSubstitute
  | backward => backSubstitute
  | transposed => backSubstituteTransposed

end Substitution

/-- What stops the substitution of row `i`: first its diagonal entry is read and tested, then its
entry of the right-hand side, which has to be one number, and then the rest of its row. -/
def substitutionFault? (s : Substitution) (rows columns : Nat) (M v : NestedArray) (i : Nat) :
    Option RoutineFault :=
  let rhs := v.shape.headD 0
  let width := (v.shape.drop 1).foldl Nat.mul 1
  if columns ≤ i then some (.misfit .outOfRange)
  else if IsTiny (M.entries.getD (i * columns + i) 0.0) then some (.singular s.cause)
  else if rhs ≤ i then some (.misfit .outOfRange)
  else if width ≠ 1 ∨ (s = .backward ∧ rows < columns) then some (.misfit .mismatch)
  else none

/-- The solution of a triangular system. Only a backward substitution reads the entries beyond the
square part of a table. -/
def substituteArrays (s : Substitution) (M v : NestedArray) : Except RoutineFault (List Float) :=
  match M.form with
  | .other cause => .error (.misfit cause)
  | .empty => .ok []
  | .table rows columns =>
    match (s.visits rows).findSome? (substitutionFault? s rows columns M v) with
    | some fault => .error fault
    | none =>
      ((s.solve (M.corner columns rows) (v.toVector rows)).map Vector.toList).mapError .singular

/-! ## Sweeps -/

/-- A right-hand side for `n` rows: one entry serves for all of them. -/
def spreadRhs (b : List Float) (n : Nat) : Vector Float n :=
  match b with
  | [x] => .replicate n x
  | _ => .ofFn fun i => b.getD i 0.0

/-- One sweep of a Gauss-Seidel method goes through as many rows as the right-hand side has. -/
def gaussSeidelPart {n : Nat} (A : Dense Float n n) (b : List Float) (x : Vector Float n) :
    Vector Float n :=
  Fin.foldl n
    (fun y i =>
      if i < b.length then setEntry y i (gaussSeidelEntry A (spreadRhs b n) x y i) else y) x

/-- One sweep with a right-hand side of any length. The residual afterwards joins it to the rows. -/
def sweepArrays {n : Nat} (gaussSeidel : Bool) (A : Dense Float n n) (b : List Float)
    (x : Vector Float n) : Except Misfit (Vector Float n) :=
  if gaussSeidel && decide (n < b.length) then .error .outOfRange
  else if b.length = n ∨ (b.length = 1 ∧ 1 < n) then
    .ok (if gaussSeidel then gaussSeidelPart A b x else jacobiSweep A (spreadRhs b n) x)
  else .error .mismatch

end EquationSolver.Linear
