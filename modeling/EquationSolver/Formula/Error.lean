/-!
# What can be wrong with a formula

A formula can fail when it is compiled, and a program when it is run at a point. Each failure is a
cause with the data that its message shows.

## Main definitions

* `CompileError`, `EvalError`: the causes
* `CompileError.message`, `EvalError.message`: their messages
-/

namespace EquationSolver

/-- Why a text or a row of tokens is no formula. -/
inductive CompileError where
  /-- There is no text, or only white space. -/
  | empty
  /-- The text has no number where one starts, or a second point after it. -/
  | invalidNumber (position : Nat)
  /-- A name means neither the variable nor a constant nor a function. -/
  | unknownName (name : String)
  /-- An operator that is no sign stands where an operand is expected. -/
  | missingLeftOperand (symbol : Char) (position : Nat)
  /-- A character starts no token. -/
  | invalidCharacter (position : Nat) (c : Char)
  /-- A parenthesis has no partner. -/
  | unbalanced
  /-- An operator has no precedence. -/
  | unknownOperator (text : String)
  /-- An operator stands where fewer than two values are. -/
  | tooFewOperands (operator : String)
  /-- A function stands where no value is. -/
  | noArgument (function : String)
  /-- The program leaves no value. -/
  | noValue
  /-- The program leaves more than one value. -/
  | tooManyOperands
  deriving DecidableEq

/-- The message of a cause. -/
def CompileError.message : CompileError → String
  | empty => "Empty expression."
  | invalidNumber position => s!"Invalid number at position {position}."
  | unknownName name => s!"Unknown function: {name}"
  | missingLeftOperand symbol position =>
    s!"Operator '{symbol}' at position {position} is missing its left operand."
  | invalidCharacter position c => s!"Invalid token at position {position}: '{c}'."
  | unbalanced => "Unbalanced parentheses."
  | unknownOperator text => s!"Unknown operator: {text}"
  | tooFewOperands operator => s!"Operator '{operator}' has too few operands."
  | noArgument function => s!"Function '{function}' has no argument."
  | noValue => "Expression has no value."
  | tooManyOperands => "Expression has too many operands."

/-- Why a program has no value at a point. -/
inductive EvalError where
  /-- An operator found fewer than two values. -/
  | notEnoughOperands
  /-- A division had a right side equal to zero. -/
  | divisionByZero
  /-- An operator has no meaning. -/
  | unknownOperator (text : String)
  /-- A function found no value. -/
  | noArgument
  /-- A function has no meaning. -/
  | unknownFunction (text : String)
  /-- A parenthesis stands in the program. -/
  | unexpectedToken (text : String)
  /-- The program did not leave exactly one value. -/
  | notOneValue
  deriving DecidableEq

/-- The message of a cause. -/
def EvalError.message : EvalError → String
  | notEnoughOperands => "Not enough operands in expression."
  | divisionByZero => "Division by zero in expression."
  | unknownOperator text => s!"Unknown operator: {text}"
  | noArgument => "Function with no argument."
  | unknownFunction text => s!"Unknown function: {text}"
  | unexpectedToken text => s!"Unexpected token: {text}"
  | notOneValue => "Invalid expression for evaluation."

end EquationSolver
