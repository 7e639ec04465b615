import EquationSolver.Formula.Postfix
import EquationSolver.Formula.Program
import EquationSolver.Formula.Scan

/-!
# Formulas

A text is compiled into a program: it is cut into tokens, these are brought into postfix order, and
the program is kept if every token finds its operands.

## Main definitions

* `Formula`: a text with its program
* `Formula.compile`: the formula of a text
* `Formula.eval`, `Formula.rpn`: its value at a point and the text of its program
-/

namespace EquationSolver

/-- A compiled formula in the variable `x`. -/
structure Formula where
  /-- The text that was compiled. -/
  source : String
  /-- The tokens in postfix order. -/
  program : List Token
  deriving BEq

namespace Formula

/-- The program of a text that is not blank. -/
def programOf (text : String) : Except CompileError (List Token) := do
  let program ← toPostfix (← tokenize text)
  checkArity program
  return program

/-- The formula of a text. -/
def compile (text : String) : Except CompileError Formula :=
  if Text.isBlankText text then .error .empty else (programOf text).map (⟨text, ·⟩)

/-- The formula of a text that may be missing. -/
def ofText? : Option String → Except CompileError Formula
  | none => .error .empty
  | some text => compile text

/-- The value of the formula at a point. -/
def eval (f : Formula) (x : Float) : Except EvalError Float := runProgram f.program x

/-- The texts of the program's tokens, separated by spaces. -/
def rpn (f : Formula) : String := " ".intercalate (f.program.map Token.text)

end Formula

end EquationSolver
