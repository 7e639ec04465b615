/-!
# Tokens of a formula

A formula in the variable `x` is a row of tokens. A token has a kind, the text it is shown by and,
for a number, a value. The operators and functions that have a meaning are listed here with their
binding strength.

## Main definitions

* `Token`: a token, with its kind
* `Operator`, `Function`: the operators and functions with a meaning, found by symbol and by name
* `Token.precedence`: how tightly a waiting operator or function binds
-/

namespace EquationSolver

/-- The kinds of tokens. -/
inductive TokenKind where
  | number
  | variable
  | operator
  | function
  | leftParen
  | rightParen
  deriving DecidableEq

/-- A token of a formula. -/
structure Token where
  /-- What the token is. -/
  kind : TokenKind
  /-- The text that the token is shown by. -/
  text : String
  /-- The value of a number. -/
  value : Float := 0.0
  deriving BEq

/-- The binary operators. -/
inductive Operator where
  | add
  | sub
  | mul
  | div
  | pow
  deriving DecidableEq

/-- The functions of one argument, the two prefix signs among them. -/
inductive Function where
  | sin
  | cos
  | tan
  | exp
  | ln
  | log10
  | sqrt
  | neg
  | pos
  deriving DecidableEq

namespace Operator

/-- All operators. -/
def all : List Operator := [add, sub, mul, div, pow]

/-- The character that writes an operator. -/
def symbol : Operator → Char
  | add => '+'
  | sub => '-'
  | mul => '*'
  | div => '/'
  | pow => '^'

/-- The text of an operator. -/
def text (op : Operator) : String := op.symbol.toString

/-- The operator that a character writes. -/
def ofSymbol? (c : Char) : Option Operator := all.find? fun op => op.symbol = c

/-- The operator with the given text. -/
def ofText? (s : String) : Option Operator := all.find? fun op => op.text = s

/-- How tightly an operator binds. -/
def precedence : Operator → Nat
  | add | sub => 1
  | mul | div => 2
  | pow => 3

/-- Whether equal operators group from the right. -/
def isRightAssoc : Operator → Bool
  | pow => true
  | _ => false

theorem ofSymbol?_symbol (op : Operator) : ofSymbol? op.symbol = some op := by cases op <;> rfl

theorem ofText?_text (op : Operator) : ofText? op.text = some op := by cases op <;> decide

end Operator

namespace Function

/-- The functions that a formula can name. -/
def named : List Function := [sin, cos, tan, exp, ln, log10, sqrt]

/-- The prefix signs. -/
def signs : List Function := [neg, pos]

/-- The text of a function. -/
def text : Function → String
  | sin => "sin"
  | cos => "cos"
  | tan => "tan"
  | exp => "exp"
  | ln => "ln"
  | log10 => "log10"
  | sqrt => "sqrt"
  | neg => "neg"
  | pos => "pos"

/-- The function with the given text. -/
def ofText? (s : String) : Option Function := (named ++ signs).find? fun f => f.text = s

/-- The function that a formula names. -/
def ofName? (s : String) : Option Function := named.find? fun f => f.text = s

/-- The prefix sign that an operator becomes where an operand is expected. -/
def ofSign? : Operator → Option Function
  | .add => some pos
  | .sub => some neg
  | _ => none

theorem ofText?_text (f : Function) : ofText? f.text = some f := by cases f <;> decide

end Function

namespace Token

/-- The token of a function. -/
def ofFunction (f : Function) : Token := ⟨.function, f.text, 0.0⟩

/-- The token of an operator. -/
def ofOperator (op : Operator) : Token := ⟨.operator, op.text, 0.0⟩

/-- The token of the variable. -/
def ofVariable : Token := ⟨.variable, "x", 0.0⟩

/-- The opening parenthesis. -/
def leftParen : Token := ⟨.leftParen, "(", 0.0⟩

/-- The closing parenthesis. -/
def rightParen : Token := ⟨.rightParen, ")", 0.0⟩

/-- A number or the variable. -/
def isOperand (t : Token) : Bool := t.kind == .number || t.kind == .variable

/-- The binding strength of a prefix sign. It is the one of the power operator, so that the sign in
`-x^2` applies to the power. -/
def signPrecedence : Nat := 3

/-- The binding strength of a function. -/
def functionPrecedence : Nat := 4

/-- A prefix sign. -/
def isSign (t : Token) : Bool := Function.signs.any fun f => f.text == t.text

/-- How tightly a waiting operator or function binds. -/
def precedence (t : Token) : Nat :=
  match t.kind, Operator.ofText? t.text with
  | .operator, some op => op.precedence
  | _, _ => if t.isSign then signPrecedence else functionPrecedence

/-- A function that is no prefix sign: it is released by the closing parenthesis of its argument. -/
def isCall (t : Token) : Bool := t.kind == .function && !t.isSign

end Token

end EquationSolver
