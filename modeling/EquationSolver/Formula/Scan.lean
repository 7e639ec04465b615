import EquationSolver.Decimal.Literal
import EquationSolver.Formula.Error
import EquationSolver.Formula.Token
import EquationSolver.Text.Blank

/-!
# The tokens of a text

A text is cut into tokens from the left. White space separates tokens and is skipped; a number is
the longest literal, a name the longest row of letters and digits that starts with a letter. A plus
or minus where an operand is expected is a prefix sign.

## Main definitions

* `Token.ofName?`: the token that a name stands for
* `nextToken`: the token at the start of a text
* `tokenize`: all tokens of a text

## Main results

* `length_lt_of_nextToken`: a token takes at least one character
-/

namespace EquationSolver

namespace Token

/-- The constants that a formula can name. -/
def constants : List (String × Float) := [("pi", 3.141592653589793), ("e", 2.718281828459045)]

/-- The token that a name in small letters stands for. -/
def ofName? (name : String) : Option Token :=
  if name = "x" then some ofVariable
  else match constants.lookup name with
    | some value => some ⟨.number, name, value⟩
    | none => (Function.ofName? name).map ofFunction

/-- Whether an operand is expected after the token. -/
def expectsOperand (t : Token) : Bool := !(t.isOperand || t.kind == .rightParen)

end Token

/-- The position of what is left of a text of the given length. -/
def positionOf (length : Nat) (cs : List Char) : Nat := length - cs.length

/-- The number at the start of what is left of a text. A point right after it makes it invalid. -/
def nextNumber (length : Nat) (cs : List Char) : Except CompileError (Token × List Char) :=
  match Literal.scan? cs with
  | none => .error (.invalidNumber (positionOf length cs))
  | some (l, rest) =>
    if rest.head? = some '.' then .error (.invalidNumber (positionOf length cs))
    else .ok (⟨.number, .ofList l.text, l.toFloat⟩, rest)

/-- What the name at the start of a text stands for, in letters of either case. -/
def nextName (c : Char) (rest : List Char) : Except CompileError (Token × List Char) :=
  let name := c :: rest.takeWhile Char.isAlphanum
  match Token.ofName? (.ofList (name.map Char.toLower)) with
  | some t => .ok (t, rest.dropWhile Char.isAlphanum)
  | none => .error (.unknownName (.ofList name))

/-- The token of an operator: a prefix sign where an operand is expected. -/
def operatorToken? (expectOperand : Bool) (op : Operator) : Option Token :=
  if expectOperand then (Function.ofSign? op).map .ofFunction else some (.ofOperator op)

/-- The token that starts with the character `c`, which is not white space, and the rest of the
text, whose length in all is given. -/
def nextToken (expectOperand : Bool) (length : Nat) (c : Char) (rest : List Char) :
    Except CompileError (Token × List Char) :=
  if isAsciiDigit c || c = '.' then nextNumber length (c :: rest)
  else if c.isAlpha then nextName c rest
  else if c = '(' then .ok (.leftParen, rest)
  else if c = ')' then .ok (.rightParen, rest)
  else match Operator.ofSymbol? c with
    | some op =>
      match operatorToken? expectOperand op with
      | some t => .ok (t, rest)
      | none => .error (.missingLeftOperand c (positionOf length (c :: rest)))
    | none => .error (.invalidCharacter (positionOf length (c :: rest)) c)

/-- A token takes at least one character. -/
theorem length_lt_of_nextToken {expectOperand : Bool} {length : Nat} {c : Char}
    {rest rest' : List Char} {t : Token}
    (h : nextToken expectOperand length c rest = .ok (t, rest')) :
    rest'.length < (c :: rest).length := by
  have drop (cs : List Char) : (cs.dropWhile Char.isAlphanum).length ≤ cs.length :=
    (List.dropWhile_sublist _).length_le
  unfold nextToken at h
  split at h
  · unfold nextNumber at h
    split at h
    · cases h
    · split at h
      · cases h
      · cases h; exact Literal.length_lt_of_scan? ‹_›
  · split at h
    · unfold nextName at h
      dsimp only at h
      split at h
      · cases h; simpa using Nat.lt_succ_of_le (drop rest)
      · cases h
    · split at h
      · cases h; simp
      · split at h
        · cases h; simp
        · split at h
          · split at h
            · cases h; simp
            · cases h
          · cases h

/-- The tokens of what is left of a text of the given length, where an operand is expected or
not. -/
def tokensFrom (expectOperand : Bool) (length : Nat) :
    List Char → Except CompileError (List Token)
  | [] => .ok []
  | c :: rest =>
    if Text.isBlank c then tokensFrom expectOperand length rest
    else match _taken : nextToken expectOperand length c rest with
      | .error e => .error e
      | .ok (t, rest') => (tokensFrom t.expectsOperand length rest').map (t :: ·)
termination_by cs => cs.length
decreasing_by
  · simp
  · exact length_lt_of_nextToken ‹_›

/-- The tokens of a text, from the left. -/
def tokenize (text : String) : Except CompileError (List Token) :=
  tokensFrom true text.length text.toList

end EquationSolver
