import EquationSolver.Decimal.Literal
import EquationSolver.Text.Blank
import EquationSolver.Text.Digit

/-!
# Numbers given as text

A number in a command line or in a cell of text may have white space around it and a sign before
it, digits of any script, and single underscores between digits. A whole number has 4300 digits at
most. A double may also be named: not a number, or an infinity in two lengths, in letters of either
case.

## Main definitions

* `readFloat?`: the double that a text writes
* `readInt?`: the whole number that a text writes
-/

namespace EquationSolver

/-- The text without its underscores, if each of them stands between two digits. The first argument
tells whether a digit came before. -/
def dropUnderscores? : (afterDigit : Bool) → List Char → Option (List Char)
  | _, [] => some []
  | afterDigit, '_' :: rest =>
    match rest with
    | d :: _ => if afterDigit && isAsciiDigit d then dropUnderscores? false rest else none
    | [] => none
  | _, c :: rest => (dropUnderscores? (isAsciiDigit c) rest).map (c :: ·)

/-- The characters of a number: no white space around, digits between `0` and `9`, no underscore. -/
def numeralChars? (s : String) : Option (List Char) :=
  dropUnderscores? false ((Text.trim Text.isSpace s.toList).map Text.toAsciiDigit)

/-- The double with the given name. -/
def namedFloat? (cs : List Char) : Option Float :=
  match String.ofList (cs.map Char.toLower) with
  | "nan" => some (0.0 / 0.0)
  | "inf" | "infinity" => some (1.0 / 0.0)
  | _ => none

/-- The double that a text without a sign writes. -/
def unsignedFloat? (cs : List Char) : Option Float :=
  match Literal.scan? cs with
  | some (l, []) => some l.toFloat
  | some _ => none
  | none => namedFloat? cs

/-- The double that a text writes. -/
def readFloat? (s : String) : Option Float := do
  let (sign, size) := Literal.scanSign (← numeralChars? s)
  let x ← unsignedFloat? size
  return if sign = ['-'] then -x else x

/-- The most digits that a whole number is read from, zeros at its start included. -/
def maxIntDigits : Nat := 4300

/-- The whole number that a text writes. -/
def readInt? (s : String) : Option Int := do
  let (sign, size) := Literal.scanSign (← numeralChars? s)
  if size.isEmpty || maxIntDigits < size.length || !size.all isAsciiDigit then none
  else return if sign = ['-'] then -(digitsValue size : Int) else digitsValue size

end EquationSolver
