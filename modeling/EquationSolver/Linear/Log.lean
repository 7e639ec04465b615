import EquationSolver.Decimal.Format
import EquationSolver.Linear.Solve
import EquationSolver.Log

/-!
# The log of a linear solver

The exchanges of an elimination or factorization are logged whether or not it breaks down later.

## Main definitions

* `LinearSystem.exchangeLog`: the lines about the exchanges of a direct method
* `LinearSystem.log`: the lines about an answer
-/

namespace EquationSolver.Linear

/-- What an exchange does, by the stage and the two positions. -/
def Exchange.text : Exchange → String
  | rows step first second =>
    "step " ++ toString step ++ ": swapping rows " ++ toString first ++ " and " ++ toString second
  | columns step first second =>
    "step " ++ toString step ++ ": swapping columns " ++ toString first ++ " and "
      ++ toString second

variable {n : Nat}

/-- The lines about the exchanges of a direct method. -/
def LinearSystem.exchangeLog (s : LinearSystem Float n) : DirectMethod → List LogLine
  | .gauss strategy =>
    let exchanges := match reduce strategy s.matrix s.rhs with
      | .ok R => R.exchanges
      | .error e => e.reached.exchanges
    exchanges.map fun x => ⟨.debug, .elimination, x.text⟩
  | .lu =>
    let exchanges := match factorStages s.matrix with
      | .ok F => F.exchanges
      | .error e => e.reached.exchanges
    exchanges.map fun x => ⟨.debug, .factorization, "lu " ++ x.text⟩
  | .cholesky => []

/-- The line about a sweep. -/
def SweepRecord.logLine (m : StationaryMethod) (r : SweepRecord Float n) : LogLine :=
  ⟨.debug, .stationary,
    m.title ++ " iteration " ++ toString r.iteration ++ ": metric=" ++ scientificText 3 r.error⟩

/-- The line about a run that diverged. -/
def SweepOutcome.log (m : StationaryMethod) (outcome : SweepOutcome Float n) : List LogLine :=
  match outcome.ending with
  | .diverged =>
    [⟨.warning, .stationary,
      m.title ++ " diverged after " ++ toString outcome.iterations ++ " iterations"⟩]
  | _ => []

/-- The lines about an answer, apart from the exchanges and the status. -/
def Answer.log : Answer Float n → List LogLine
  | solved _ => []
  | unsolved m cause => [⟨.debug, .linear, m.title ++ ": " ++ cause.message⟩]
  | refused _ _ => []
  | ran m history => history.trace.map (SweepRecord.logLine m) ++ history.outcome.log m

/-- The lines about the answer of a method, in order. -/
def LinearSystem.log (s : LinearSystem Float n) (method : Method) (answer : Answer Float n) :
    List LogLine :=
  let exchanges := match method with
    | .direct m => s.exchangeLog m
    | .stationary _ => []
  let report := answer.report false
  exchanges ++ answer.log
    ++ [.ended .linear method.name report.status.name report.iterations]

end EquationSolver.Linear
