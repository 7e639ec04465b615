import EquationSolver.Scalar
import EquationSolver.Status
import EquationSolver.Iteration
import EquationSolver.Log
import EquationSolver.Text.Blank
import EquationSolver.Text.Digit
import EquationSolver.Text.Printable
import EquationSolver.Text.Quoted
import EquationSolver.Decimal.Binary
import EquationSolver.Decimal.Rounding
import EquationSolver.Decimal.Shortest
import EquationSolver.Decimal.Format
import EquationSolver.Decimal.Literal
import EquationSolver.Decimal.Numeral
import EquationSolver.Json.Value
import EquationSolver.Json.Reader
import EquationSolver.Json.Writer
import EquationSolver.Formula.Token
import EquationSolver.Formula.Error
import EquationSolver.Formula.Scan
import EquationSolver.Formula.Postfix
import EquationSolver.Formula.Program
import EquationSolver.Formula.Compile
import EquationSolver.Root.Outcome
import EquationSolver.Root.Bracketing
import EquationSolver.Root.Open
import EquationSolver.Root.Solve
import EquationSolver.Root.Log
import EquationSolver.Linear.Dense
import EquationSolver.Linear.Stages
import EquationSolver.Linear.Triangular
import EquationSolver.Linear.Elimination
import EquationSolver.Linear.Factorization
import EquationSolver.Linear.Cholesky
import EquationSolver.Linear.Stationary
import EquationSolver.Linear.NestedArray
import EquationSolver.Linear.AnyShape
import EquationSolver.Linear.Swap
import EquationSolver.Linear.Solve
import EquationSolver.Linear.Log
import EquationSolver.CommandLine.Options
import EquationSolver.CommandLine.Commands
import EquationSolver.CommandLine.Report
import EquationSolver.CommandLine.Run
import EquationSolver.Main
import EquationSolver.Proofs.Formula.Tree
import EquationSolver.Proofs.Formula.Arity
import EquationSolver.Proofs.Formula.Grammar
import EquationSolver.Proofs.Formula.ShuntingYard
import EquationSolver.Proofs.Formula.Literal
import EquationSolver.Proofs.Formula.Spelling
import EquationSolver.Proofs.Formula.Compilation
import EquationSolver.Proofs.Formula.Parentheses
import EquationSolver.Proofs.Formula.Acceptance
import EquationSolver.Proofs.Linear.Exact
import EquationSolver.Proofs.Linear.Triangular
import EquationSolver.Proofs.Linear.Elimination
import EquationSolver.Proofs.Linear.Factorization
import EquationSolver.Proofs.Linear.Cholesky
import EquationSolver.Proofs.Linear.Direct
import EquationSolver.Proofs.Linear.Lockstep
import EquationSolver.Proofs.Linear.Verdict
import EquationSolver.Proofs.Double.Rounding
import EquationSolver.Proofs.Double.Arithmetic
import EquationSolver.Proofs.Double.Size
import EquationSolver.Proofs.Root.Contract
import EquationSolver.Proofs.Root.Raising
import EquationSolver.Proofs.Formula.Operators
import EquationSolver.Proofs.Root.NeverRaises
import EquationSolver.Proofs.Iteration
import EquationSolver.Proofs.Root.Scheme
import EquationSolver.Proofs.Root.Process
import EquationSolver.Proofs.Root.Trace
import EquationSolver.Proofs.Double.Order
import EquationSolver.Proofs.Root.BadInput
import EquationSolver.Proofs.Budget
import EquationSolver.Proofs.Tolerance
import EquationSolver.Proofs.Linear.FirstTerminal
import EquationSolver.Proofs.Double.SquareRoot
import EquationSolver.Proofs.Linear.Contract
import EquationSolver.Proofs.Formula.Numeral
import EquationSolver.Proofs.Formula.Raising
import EquationSolver.Proofs.Formula.Respelling
import EquationSolver.Proofs.Formula.Safety
import EquationSolver.Proofs.Linear.Range
import EquationSolver.Proofs.CommandLine.ExitStatus
import EquationSolver.Proofs.Root.SignChange
import EquationSolver.Proofs.Root.Halving
import EquationSolver.Proofs.Linear.Minors
import EquationSolver.Proofs.Linear.History
import EquationSolver.Proofs.Linear.Shape
import EquationSolver.Proofs.Root.FalsePosition
import EquationSolver.Proofs.Linear.Dominance
import EquationSolver.Proofs.Linear.Definiteness
import EquationSolver.Proofs.Linear.Growth
import EquationSolver.Proofs.Linear.Energy
import EquationSolver.Proofs.Linear.Splitting
import EquationSolver.Proofs.Linear.Convergence
import EquationSolver.Proofs.Formula.ProgramText
import EquationSolver.Proofs.Formula.Conservation
import EquationSolver.Proofs.Linear.Substitution
