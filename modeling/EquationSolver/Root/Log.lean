import EquationSolver.Log
import EquationSolver.Root.Solve
import EquationSolver.Text.Quoted

/-!
# The log of a root search

## Main definitions

* `Formula.logLine`: the line about a compiled formula
* `Root.Solution.log`: the lines about a solution
-/

namespace EquationSolver

/-- The line about a compiled formula. -/
def Formula.logLine (f : Formula) : LogLine :=
  ⟨.debug, .formula, "compiled " ++ Text.quote f.source ++ " -> " ++ f.rpn⟩

namespace Root

/-- The line about an iteration. -/
def Record.logLine (r : Record Float) : LogLine :=
  ⟨.debug, .rootFinding,
    "iteration " ++ toString r.iteration ++ ": x=" ++ shortestText r.x ++ " f(x)="
      ++ shortestText r.fx ++ " error=" ++ (r.error.map shortestText).getD "None"⟩

/-- The lines about the end of a run: a warning if it diverged, and its status. A run whose first
values did not exist ends without a line. -/
def Outcome.log (m : Method) (outcome : Outcome Float) : List LogLine :=
  let report := outcome.report m none
  let ended := LogLine.ended .rootFinding m.name report.status.name report.iterations
  match outcome with
  | diverged _ k =>
    [⟨.warning, .rootFinding, report.message ++ " (iteration " ++ toString k ++ ")"⟩, ended]
  | invalid (.unevaluable _ _ _) => []
  | _ => [ended]

/-- The lines about a solution, in order. -/
def Solution.log (s : Solution) : List LogLine :=
  s.formulas.map Formula.logLine ++
    match s.verdict with
    | .ran m history => history.trace.map Record.logLine ++ history.outcome.log m
    | _ => []

end Root

end EquationSolver
