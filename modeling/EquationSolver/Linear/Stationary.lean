import EquationSolver.Iteration
import EquationSolver.Linear.Dense

/-!
# Stationary iterations

A stationary method applies the same sweep over and over, from the zero vector, until its stopping
metric falls below a tolerance. A Jacobi sweep computes every component from the iterate before, a
Gauss-Seidel sweep uses the components it has already updated.

## Main definitions

* `jacobiSweep`, `gaussSeidelSweep`: the two sweeps
* `StopRule.metric`: the size of the residual or of the last change
* `stationaryTurn`, `stationary`: one sweep with its test, and the run
-/

namespace EquationSolver.Linear

variable {α : Type} {n : Nat}

/-- What the stopping test measures. -/
inductive StopRule where
  /-- The residual of the new iterate. -/
  | residual
  /-- The change from the iterate before. -/
  | change
  deriving DecidableEq

namespace StopRule

/-- All rules. -/
def all : List StopRule := [residual, change]

/-- The name of a rule. -/
def name : StopRule → String
  | residual => "residual"
  | change => "delta_x"

/-- The rule with the given name. -/
def ofName? (s : String) : Option StopRule := all.find? fun r => r.name = s

theorem ofName?_name (r : StopRule) : ofName? r.name = some r := by cases r <;> decide

end StopRule

/-- What is recorded of one sweep. -/
structure SweepRecord (α : Type) (n : Nat) where
  /-- The number of the sweep. -/
  iteration : Nat
  /-- The iterate after it. -/
  x : Vector α n
  /-- The metric of the stopping test. -/
  error : α

/-- How a run of sweeps ends. -/
inductive SweepEnd where
  /-- The metric fell below the tolerance. -/
  | converged
  /-- The metric or the iterate grew too large or was not finite. -/
  | diverged
  /-- The budget was spent. -/
  | exhausted
  deriving DecidableEq

/-- The outcome of a run of sweeps. -/
structure SweepOutcome (α : Type) (n : Nat) where
  /-- How the run ended. -/
  ending : SweepEnd
  /-- The last iterate. -/
  x : Vector α n
  /-- The sweeps that were taken. -/
  iterations : Nat

/-- The run of a stationary method. -/
abbrev SweepHistory (α : Type) (n : Nat) := Run (SweepRecord α n) (SweepOutcome α n)

/-- One step of a stationary method. -/
abbrev Sweep (α : Type) (n : Nat) := Dense α n n → Vector α n → Vector α n → Vector α n

section

variable [Add α] [Sub α] [Mul α] [Div α] [Zero α]

/-- Every component from the iterate before: the off-diagonal part is the full product less the
diagonal one. -/
def jacobiSweep : Sweep α n := fun A b x =>
  let product := A.mulVec x
  .ofFn fun i => (b.get i - (product.get i - A i i * x.get i)) / A i i

/-- The component `i` of a Gauss-Seidel sweep, when those before it are updated. -/
def gaussSeidelEntry (A : Dense α n n) (b x y : Vector α n) (i : Fin n) : α :=
  let before := sumWhere (· < i) fun j => A i j * y.get j
  let after := sumWhere (i < ·) fun j => A i j * x.get j
  (b.get i - (before + after)) / A i i

/-- Every component in turn, from the updated components before it and the old ones after it. -/
def gaussSeidelSweep : Sweep α n := fun A b x =>
  Fin.foldl n (fun y i => setEntry y i (gaussSeidelEntry A b x y i)) x

variable [SquareRoot α]

/-- The metric of the stopping test. -/
def StopRule.metric (rule : StopRule) (A : Dense α n n) (b before x : Vector α n) : α :=
  match rule with
  | residual => norm (difference (A.mulVec x) b)
  | change => norm (difference x before)

variable [LT α] [DecidableLT α] [OfScientific α] [Scalar α]

/-- Whether a metric and an iterate count as diverged. -/
def hasDiverged (metric : α) (x : Vector α n) : Bool :=
  !Scalar.isFinite metric || (List.finRange n).any (fun i => !Scalar.isFinite (x.get i)) ||
    decide ((1e12 : α) < norm x)

variable (sweep : Sweep α n) (A : Dense α n n) (b : Vector α n) (rule : StopRule) (tol : α)

/-- One sweep with its test. -/
def stationaryTurn (k : Nat) (before : Vector α n) :
    Turn (Vector α n) (SweepRecord α n) (SweepOutcome α n) :=
  let x := sweep A b before
  let metric := rule.metric A b before x
  ⟨some ⟨k, x, metric⟩,
    if hasDiverged metric x then .stop ⟨.diverged, x, k⟩
    else if metric < tol then .stop ⟨.converged, x, k⟩
    else .go x⟩

/-- The run of a stationary method from the zero vector. -/
def stationary (budget : Nat) : SweepHistory α n :=
  iterate (stationaryTurn sweep A b rule tol) (fun x => ⟨.exhausted, x, budget⟩) budget 1
    (.replicate n 0)

end

end EquationSolver.Linear
