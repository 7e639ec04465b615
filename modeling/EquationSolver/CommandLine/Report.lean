import EquationSolver.Json.Writer
import EquationSolver.Linear.Solve
import EquationSolver.Root.Solve

/-!
# Printed reports

A report is printed as a JSON object, and its trace, if it is asked for, as a table below it: a line
of column names and a line for each record, the cells separated by tabs.

## Main definitions

* `Root.Report.json`, `Linear.Report.json`: a report as an object
* `table`: columns as the lines of a table
* `Root.Report.printed`, `Linear.Report.printed`: a report with its table
-/

namespace EquationSolver

namespace CommandLine

/-- The cells of a column of numbers that may be missing. Beside numbers a missing one is shown as
no number; a column without any number says so. -/
def optionalCells (column : List (Option Float)) : List String :=
  let missing := if column.any Option.isSome then "nan" else "None"
  column.map fun x => (x.map shortestText).getD missing

/-- The lines of cells from columns of cells. -/
def transposed : (rows : Nat) → List (List String) → List (List String)
  | 0, _ => []
  | rows + 1, columns =>
    columns.map (·.headD "") :: transposed rows (columns.map List.tail)

/-- Columns of the given length, with their names, as the lines of a table. -/
def table (rows : Nat) (columns : List (String × List String)) : String :=
  let lines := columns.map Prod.fst :: transposed rows (columns.map Prod.snd)
  String.join (lines.map fun cells => "\t".intercalate cells ++ "\n")

/-- A value that may be missing. -/
def optionalJson (x : Option Float) : Json := (x.map Json.float).getD .null

/-- An object on lines of its own, and the table of a trace that is not empty. -/
def printedReport (report : Json) (rows : Nat) (columns : List (String × List String)) : String :=
  report.pretty 0 ++ "\n" ++ if rows = 0 then "" else table rows columns

end CommandLine

open CommandLine

namespace Root

/-- A report as an object, without its trace. Time is not measured. -/
def Report.json (r : Report) : Json :=
  .object [("status", .text r.status.name), ("root", optionalJson r.root),
    ("iterations", .int r.iterations), ("elapsed_ms", .float 0.0), ("message", .text r.message),
    ("last_estimate", optionalJson r.lastEstimate)]

/-- The columns of a trace. -/
def columns (trace : List (Record Float)) : List (String × List String) :=
  [("iteration", trace.map fun r => toString r.iteration),
    ("x", trace.map fun r => shortestText r.x), ("fx", trace.map fun r => shortestText r.fx),
    ("a", optionalCells (trace.map Record.a)), ("b", optionalCells (trace.map Record.b)),
    ("error", optionalCells (trace.map Record.error))]

/-- A report with the table of its trace, if it has one. -/
def Report.printed (r : Report) : String :=
  let trace := r.steps.getD []
  printedReport r.json trace.length (columns trace)

end Root

namespace Linear

variable {n : Nat}

/-- A report as an object, without its trace. Time is not measured. -/
def Report.json (r : Report Float n) : Json :=
  .object [("status", .text r.status.name), ("solution", .list (r.solution.map Json.float)),
    ("iterations", .int r.iterations), ("elapsed_ms", .float 0.0), ("message", .text r.message)]

/-- A vector between brackets. -/
def vectorText (v : Vector Float n) : String :=
  "[" ++ ", ".intercalate (v.toList.map shortestText) ++ "]"

/-- The columns of a trace. -/
def columns (trace : List (SweepRecord Float n)) : List (String × List String) :=
  [("iteration", trace.map fun r => toString r.iteration),
    ("x", trace.map fun r => vectorText r.x), ("error", trace.map fun r => shortestText r.error)]

/-- A report with the table of its trace, if it has one. -/
def Report.printed (r : Report Float n) : String :=
  let trace := r.steps.getD []
  printedReport r.json trace.length (columns trace)

end Linear

end EquationSolver
