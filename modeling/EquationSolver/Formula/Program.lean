import EquationSolver.Formula.Error
import EquationSolver.Formula.Token

/-!
# Programs in postfix order

A row of tokens in postfix order is a program for a stack of values. Whether every token finds its
operands can be told from the number of values alone, before the program is run.

## Main definitions

* `checkArity`: whether every token finds its operands and one value is left
* `runProgram`: the value of a program at a point
-/

namespace EquationSolver

/-- Whether the tokens find their operands when `depth` values are on the stack, and leave one. -/
def checkArityFrom : (depth : Nat) → List Token → Except CompileError Unit
  | depth, [] =>
    if depth = 0 then .error .noValue
    else if 1 < depth then .error .tooManyOperands else .ok ()
  | depth, t :: rest =>
    if t.isOperand then checkArityFrom (depth + 1) rest
    else if t.kind = .operator then
      if depth < 2 then .error (.tooFewOperands t.text) else checkArityFrom (depth - 1) rest
    else if depth < 1 then .error (.noArgument t.text) else checkArityFrom depth rest

/-- Whether every token of a program finds its operands and one value is left. -/
def checkArity (program : List Token) : Except CompileError Unit := checkArityFrom 0 program

/-- The power of a double; a square is a product. -/
def power (x y : Float) : Float := if y == 2.0 then x * x else x.pow y

/-- The result of an operator, in the arithmetic of doubles. -/
def Operator.apply : Operator → Float → Float → Float
  | add, x, y => x + y
  | sub, x, y => x - y
  | mul, x, y => x * y
  | div, x, y => x / y
  | pow, x, y => power x y

/-- The result of a function, in the arithmetic of doubles. -/
def Function.apply : Function → Float → Float
  | sin, x => x.sin
  | cos, x => x.cos
  | tan, x => x.tan
  | exp, x => x.exp
  | ln, x => x.log
  | log10, x => x.log10
  | sqrt, x => x.sqrt
  | neg, x => -x
  | pos, x => x

/-- The value of an operator by its text. A division by zero of either sign has none. -/
def applyOperator (text : String) (left right : Float) : Except EvalError Float :=
  if text = "/" ∧ right == 0.0 then .error .divisionByZero
  else match Operator.ofText? text with
    | some op => .ok (op.apply left right)
    | none => .error (.unknownOperator text)

/-- The value of a function by its text. -/
def applyFunction (text : String) (argument : Float) : Except EvalError Float :=
  match Function.ofText? text with
  | some f => .ok (f.apply argument)
  | none => .error (.unknownFunction text)

/-- The stack after one token, with the variable at `x`. -/
def stepProgram (x : Float) (t : Token) (stack : List Float) : Except EvalError (List Float) :=
  match t.kind with
  | .number => .ok (t.value :: stack)
  | .variable => .ok (x :: stack)
  | .operator =>
    match stack with
    | right :: left :: below => (applyOperator t.text left right).map (· :: below)
    | _ => .error .notEnoughOperands
  | .function =>
    match stack with
    | argument :: below => (applyFunction t.text argument).map (· :: below)
    | [] => .error .noArgument
  | .leftParen | .rightParen => .error (.unexpectedToken t.text)

/-- The stack after a row of tokens. -/
def runFrom (x : Float) : (stack : List Float) → List Token → Except EvalError (List Float)
  | stack, [] => .ok stack
  | stack, t :: rest =>
    match stepProgram x t stack with
    | .error e => .error e
    | .ok stack' => runFrom x stack' rest

/-- The value that a program leaves on the empty stack, with the variable at `x`. -/
def runProgram (program : List Token) (x : Float) : Except EvalError Float :=
  match runFrom x [] program with
  | .error e => .error e
  | .ok [value] => .ok value
  | .ok _ => .error .notOneValue

end EquationSolver
