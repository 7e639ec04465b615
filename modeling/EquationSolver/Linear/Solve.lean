import EquationSolver.Linear.Cholesky
import EquationSolver.Linear.Factorization
import EquationSolver.Linear.NestedArray
import EquationSolver.Linear.Stationary
import EquationSolver.Status

/-!
# Solving a linear system

A square system is solved by one of seven methods: elimination with three choices of the pivot, two
factorizations, and two stationary iterations. The answer of a method is a solution or the cause why
there is none.

## Main definitions

* `LinearSystem`, `LinearSystem.ofArrays`: a system, and the system that two arrays make
* `Method`: the methods
* `LinearSystem.solve`: the answer of a method
* `LinearSystem.request`: the report on a request that names its method
-/

namespace EquationSolver.Linear

/-- The square system `matrix * x = rhs`. -/
structure LinearSystem (α : Type) (n : Nat) where
  /-- The matrix. -/
  matrix : Dense α n n
  /-- The right-hand side. -/
  rhs : Vector α n

/-- Why two arrays make no system. -/
inductive ShapeFault where
  /-- The first is not a square matrix. -/
  | notSquare
  /-- The second is not a vector of the same size. -/
  | rhsMismatch
  deriving DecidableEq

/-- The message of a fault. -/
def ShapeFault.message : ShapeFault → String
  | notSquare => "Matrix A must be square."
  | rhsMismatch => "Vector b length must match the dimensions of matrix A."

/-- The system that two arrays make. -/
def LinearSystem.ofArrays (A b : NestedArray) :
    Except ShapeFault ((n : Nat) × LinearSystem Float n) :=
  match A.shape with
  | [m, n] =>
    if m ≠ n then .error .notSquare
    else if b.shape ≠ [n] then .error .rhsMismatch
    else .ok ⟨n, A.toDense n n, b.toVector n⟩
  | _ => .error .notSquare

/-- The methods that find the solution in one pass. -/
inductive DirectMethod where
  | gauss (strategy : Pivoting)
  | lu
  | cholesky
  deriving DecidableEq

/-- The methods that approach the solution. -/
inductive StationaryMethod where
  | jacobi
  | gaussSeidel
  deriving DecidableEq

/-- The methods. -/
inductive Method where
  | direct (method : DirectMethod)
  | stationary (method : StationaryMethod)
  deriving DecidableEq

namespace Method

/-- All methods, with their names. -/
def named : List (Method × String) :=
  [(direct (.gauss .natural), "gauss"), (direct (.gauss .column), "gauss_partial_pivoting"),
    (direct (.gauss .full), "gauss_full_pivoting"), (direct .lu, "lu"),
    (direct .cholesky, "cholesky"), (stationary .jacobi, "jacobi"),
    (stationary .gaussSeidel, "gauss_seidel")]

/-- The name by which a method is requested. -/
def name (m : Method) : String := (named.lookup m).getD ""

/-- The method with the given name. -/
def ofName? (s : String) : Option Method := (named.find? fun p => p.2 = s).map Prod.fst

theorem ofName?_name (m : Method) : ofName? m.name = some m := by
  rcases m with (strategy | _ | _) | (_ | _)
  · cases strategy <;> decide
  all_goals decide

end Method

/-- The name of a method in messages. -/
def DirectMethod.title : DirectMethod → String
  | gauss .natural => "Gauss elimination"
  | gauss .column => "Gauss with partial pivoting"
  | gauss .full => "Gauss with full pivoting"
  | lu => "LU factorization"
  | cholesky => "Cholesky"

/-- The name of a method in messages. -/
def StationaryMethod.title : StationaryMethod → String
  | jacobi => "Jacobi"
  | gaussSeidel => "Gauss-Seidel"

/-- Why a direct method has no solution. -/
inductive DirectFault where
  /-- The system counts as singular. -/
  | singular (cause : Singularity)
  /-- The matrix does not count as symmetric and positive definite. -/
  | indefinite (cause : Indefinite)
  deriving DecidableEq

/-- What is asked of a stationary method. -/
structure StationaryParams (α : Type) where
  /-- The tolerance of the stopping test. -/
  tolerance : α
  /-- The most sweeps that may be taken. -/
  maxIterations : Int
  /-- What the stopping test measures, or the text of a value that names no rule. -/
  stop : Except String StopRule

/-- Why a stationary method cannot start. -/
inductive StationaryFault where
  /-- There are no parameters. -/
  | paramsMissing
  /-- The tolerance is not above zero. -/
  | tolerance
  /-- The budget is not above zero. -/
  | budget
  /-- The stopping rule is unknown. -/
  | unknownStop (text : String)
  /-- A diagonal entry counts as zero. -/
  | zeroDiagonal
  deriving DecidableEq

/-- The answer of a method. -/
inductive Answer (α : Type) (n : Nat) where
  /-- A direct method found a solution. -/
  | solved (x : Vector α n)
  /-- A direct method found none. -/
  | unsolved (method : DirectMethod) (cause : DirectFault)
  /-- A stationary method did not start. -/
  | refused (method : StationaryMethod) (cause : StationaryFault)
  /-- A stationary method ran. -/
  | ran (method : StationaryMethod) (history : SweepHistory α n)

section

variable {α : Type} {n : Nat} [Add α] [Sub α] [Mul α] [Div α] [Zero α] [LE α] [DecidableLE α]
  [LT α] [DecidableLT α] [OfScientific α] [Scalar α] [SquareRoot α]

/-- The sweep of a method. -/
def StationaryMethod.sweep : StationaryMethod → Sweep α n
  | jacobi => jacobiSweep
  | gaussSeidel => gaussSeidelSweep

/-- The cause in a fault of the factorization of a symmetric matrix. -/
def CholeskyFault.cause : CholeskyFault → DirectFault
  | indefinite cause => .indefinite cause
  | singular cause => .singular cause

/-- The stopping rule of usable parameters. -/
def StationaryParams.check (params : Option (StationaryParams α)) :
    Except StationaryFault (StationaryParams α × StopRule) :=
  match params with
  | none => .error .paramsMissing
  | some p =>
    if ¬ 0 < p.tolerance then .error .tolerance
    else if p.maxIterations ≤ 0 then .error .budget
    else match p.stop with
      | .error text => .error (.unknownStop text)
      | .ok rule => .ok (p, rule)

namespace LinearSystem

/-- The answer of a stationary method. -/
def solveStationary (s : LinearSystem α n) (m : StationaryMethod)
    (params : Option (StationaryParams α)) : Answer α n :=
  match StationaryParams.check params with
  | .error cause => .refused m cause
  | .ok (p, rule) =>
    if hasTinyDiagonal s.matrix then .refused m .zeroDiagonal
    else
      .ran m (stationary m.sweep s.matrix s.rhs rule p.tolerance p.maxIterations.toNat)

variable [One α]

/-- The solution of a direct method. -/
def solveDirect (s : LinearSystem α n) : DirectMethod → Except DirectFault (Vector α n)
  | .gauss strategy => (gaussSolve strategy s.matrix s.rhs).mapError .singular
  | .lu => (luSolve s.matrix s.rhs).mapError .singular
  | .cholesky => (choleskySolve s.matrix s.rhs).mapError CholeskyFault.cause

/-- The answer of a method. -/
def solve (s : LinearSystem α n) (method : Method) (params : Option (StationaryParams α)) :
    Answer α n :=
  match method with
  | .direct m =>
    match s.solveDirect m with
    | .ok x => .solved x
    | .error cause => .unsolved m cause
  | .stationary m => s.solveStationary m params

end LinearSystem

end

/-! ## Reports -/

/-- The message of a fault. -/
def StationaryFault.message (m : StationaryMethod) : StationaryFault → String
  | paramsMissing => "Iterative parameters are required for the selected method."
  | tolerance => "Tolerance must be greater than zero."
  | budget => "Maximum number of iterations must be greater than zero."
  | unknownStop text => "Unrecognized stop condition: " ++ text ++ "."
  | zeroDiagonal => "Diagonal contains zero; " ++ m.title ++ " cannot be applied."

/-- The message of a cause. -/
def DirectFault.message : DirectFault → String
  | singular cause => cause.message
  | indefinite cause => cause.message

/-- What the caller of a method sees. -/
structure Report (α : Type) (n : Nat) where
  /-- How the method ended. -/
  status : Status
  /-- The last vector found, if there is one. -/
  solution : List α := []
  /-- The sweeps that were taken. -/
  iterations : Nat := 0
  /-- What went wrong; empty on success. -/
  message : String := ""
  /-- The trace of a stationary method, if it was asked for. -/
  steps : Option (List (SweepRecord α n)) := none

variable {α : Type} {n : Nat}

/-- The status of the end of a run. -/
def SweepEnd.status : SweepEnd → Status
  | converged => .success
  | diverged => .divergence
  | exhausted => .maxIterationsReached

/-- The message of the end of a run. -/
def SweepEnd.message (m : StationaryMethod) : SweepEnd → String
  | converged => ""
  | diverged => "Iterations diverged in the " ++ m.title ++ " method."
  | exhausted => "Maximum number of iterations reached in the " ++ m.title ++ " method."

/-- The report of an answer, with its trace if that is asked for. -/
def Answer.report (answer : Answer α n) (withSteps : Bool) : Report α n :=
  match answer with
  | solved x => { status := .success, solution := x.toList }
  | unsolved m (.singular cause) =>
    { status := .singularMatrix, message := m.title ++ ": " ++ cause.message ++ "." }
  | unsolved _ (.indefinite cause) =>
    { status := .notPositiveDefinite, message := cause.message }
  | refused m cause => { status := .invalidInput, message := cause.message m }
  | ran m history =>
    { status := history.outcome.ending.status
      solution := history.outcome.x.toList
      iterations := history.outcome.iterations
      message := history.outcome.ending.message m
      steps := if withSteps then some history.trace else none }

/-- The report of a request that names no method. -/
def Report.unknownMethod : Report α n :=
  { status := .notImplemented, message := "Unrecognized method for solving linear systems." }

/-- The report of a request. What names a method may be missing, and may name none. -/
def LinearSystem.request [Add α] [Sub α] [Mul α] [Div α] [Zero α] [One α] [LE α] [DecidableLE α]
    [LT α] [DecidableLT α] [OfScientific α] [Scalar α] [SquareRoot α] (s : LinearSystem α n)
    (name : Option String) (params : Option (StationaryParams α)) (withSteps : Bool) : Report α n :=
  match name.bind Method.ofName? with
  | none => .unknownMethod
  | some m => (s.solve m params).report withSteps

end EquationSolver.Linear
