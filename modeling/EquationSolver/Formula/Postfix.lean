import EquationSolver.Formula.Error
import EquationSolver.Formula.Token

/-!
# Postfix order

Tokens in the order of a formula are brought into postfix order. Operands keep their order;
operators, functions and opening parentheses wait on a stack until a weaker operator, a closing
parenthesis or the end of the formula releases them.

## Main definitions

* `Token.yieldsTo`: whether a waiting token is released by an operator
* `toPostfix`: the tokens in postfix order
-/

namespace EquationSolver

/-- Whether a waiting token is released by an operator that comes after it: it binds more tightly,
or as tightly as an operator that groups from the left. -/
def Token.yieldsTo (op : Operator) (waiting : Token) : Bool :=
  waiting.kind != .leftParen &&
    (op.precedence < waiting.precedence ||
      (waiting.precedence == op.precedence && !op.isRightAssoc))

/-- What a closing parenthesis releases, and what still waits after it: everything down to its
partner, and the function in front of the partner. -/
def closeParen (stack : List Token) : Except CompileError (List Token × List Token) :=
  let inner := stack.takeWhile (·.kind != .leftParen)
  match stack.dropWhile (·.kind != .leftParen) with
  | [] => .error .unbalanced
  | _ :: f :: below => .ok (if f.isCall then (inner ++ [f], below) else (inner, f :: below))
  | [_] => .ok (inner, [])

/-- The postfix order of the tokens still to come, above the waiting ones. -/
def postfixFrom : (stack : List Token) → List Token → Except CompileError (List Token)
  | stack, [] => if stack.any (·.kind == .leftParen) then .error .unbalanced else .ok stack
  | stack, t :: rest =>
    match t.kind with
    | .number | .variable => (postfixFrom stack rest).map (t :: ·)
    | .function | .leftParen => postfixFrom (t :: stack) rest
    | .operator =>
      match Operator.ofText? t.text with
      | none => .error (.unknownOperator t.text)
      | some op =>
        (postfixFrom (t :: stack.dropWhile (Token.yieldsTo op)) rest).map
          (stack.takeWhile (Token.yieldsTo op) ++ ·)
    | .rightParen =>
      match closeParen stack with
      | .error e => .error e
      | .ok (released, waiting) => (postfixFrom waiting rest).map (released ++ ·)

/-- The tokens in postfix order. -/
def toPostfix (tokens : List Token) : Except CompileError (List Token) := postfixFrom [] tokens

end EquationSolver
