import EquationSolver.Text.Printable

/-!
# Quoted text

A text is shown between quotes: single ones, or double ones if it holds a single quote and no
double one. The quote and the backslash are escaped by a backslash, line feed, carriage return and
tab by a letter, and an unprintable character by its code point in two, four or eight hexadecimal
digits.

## Main definitions

* `quote`: a text between quotes
* `hexDigits`: a number in lower case hexadecimal of fixed width
-/

namespace EquationSolver.Text

/-- The number in hexadecimal, its last `width` digits. -/
def hexDigits : (width : Nat) → Nat → List Char
  | 0, _ => []
  | width + 1, n => hexDigits width (n / 16) ++ [Nat.digitChar (n % 16)]

/-- The code point of an unprintable character, in the shortest of the three widths. -/
def escapeCode (c : Char) : List Char :=
  if c.toNat ≤ 0xff then '\\' :: 'x' :: hexDigits 2 c.toNat
  else if c.toNat ≤ 0xffff then '\\' :: 'u' :: hexDigits 4 c.toNat
  else '\\' :: 'U' :: hexDigits 8 c.toNat

/-- One character of a text between quotes of the given kind. -/
def escape (mark c : Char) : List Char :=
  if c = mark ∨ c = '\\' then ['\\', c]
  else if c = '\n' then ['\\', 'n']
  else if c = '\r' then ['\\', 'r']
  else if c = '\t' then ['\\', 't']
  else if isPrintable c then [c]
  else escapeCode c

/-- The kind of quotes a text is shown in. -/
def quoteMark (cs : List Char) : Char := if '\'' ∈ cs ∧ '"' ∉ cs then '"' else '\''

/-- A text between quotes. -/
def quote (s : String) : String :=
  let mark := quoteMark s.toList
  .ofList (mark :: s.toList.flatMap (escape mark) ++ [mark])

end EquationSolver.Text
