import EquationSolver.Decimal.Shortest

/-!
# The text of a double

A double is written with the shortest digits that read back, with six significant digits, with a
fixed count of places, or in scientific notation with a fixed count of places.

## Main definitions

* `NumberStyle`: where positional notation ends, and how whole numbers look
* `Decimal.written`: digits laid out in a style
* `shortestText`, `generalText`, `fixedText`, `scientificText`: the four texts of a double
-/

namespace EquationSolver

/-- How digits are laid out. -/
structure NumberStyle where
  /-- Numbers from `10 ^ positionalBelow` on are written with an exponent, as are those below
  `10 ^ -4`. -/
  positionalBelow : Int
  /-- What follows the digits of a whole number in positional notation. -/
  wholeEnd : String

/-- The shortest text of a double keeps a digit after the point and is positional below
`10 ^ 16`. -/
def NumberStyle.shortest : NumberStyle := ⟨16, ".0"⟩

/-- The text with six digits drops the point of a whole number and is positional below `10 ^ 6`. -/
def NumberStyle.general : NumberStyle := ⟨6, ""⟩

/-- The minus sign of a negative number. -/
def signText (negative : Bool) : String := if negative then "-" else ""

/-- The text of an infinity. -/
def infinityText (negative : Bool) : String := signText negative ++ "inf"

/-- Zeros that bring a text of digits to a width, on the left. -/
def padZeros (width : Nat) (digits : List Char) : List Char :=
  .replicate (width - digits.length) '0' ++ digits

/-- The exponent of scientific notation: a sign and two digits at least. -/
def exponentText (e : Int) : List Char :=
  (if e < 0 then '-' else '+') :: padZeros 2 (Nat.toDigits 10 e.natAbs)

/-- One digit, a point if digits follow, the other digits and the exponent. -/
def scientificLayout (digits : List Char) (e : Int) : List Char :=
  let (first, rest) := digits.splitAt 1
  first ++ (if rest.isEmpty then [] else '.' :: rest) ++ 'e' :: exponentText e

/-- The digits around the point, for a number `d.ddd * 10 ^ e`. -/
def positionalLayout (wholeEnd : String) (digits : List Char) (e : Int) : List Char :=
  if e < 0 then '0' :: '.' :: .replicate (-e - 1).toNat '0' ++ digits
  else
    let (whole, fraction) := digits.splitAt (e.toNat + 1)
    if fraction.isEmpty then whole ++ .replicate (e.toNat + 1 - whole.length) '0' ++ wholeEnd.toList
    else whole ++ '.' :: fraction

namespace Decimal

/-- The number in a style: positional for the exponents from `-4` up to the bound of the style. -/
def written (style : NumberStyle) (d : Decimal) : List Char :=
  if -4 ≤ d.leading ∧ d.leading < style.positionalBelow then
    positionalLayout style.wholeEnd d.digits d.leading
  else scientificLayout d.digits d.leading

/-- The number with `places` digits after the point, of which it is a multiple. -/
def fixedLayout (places : Nat) (coefficient : Nat) : List Char :=
  let digits := padZeros (places + 1) (Nat.toDigits 10 coefficient)
  let (whole, fraction) := digits.splitAt (digits.length - places)
  if places = 0 then whole else whole ++ '.' :: fraction

end Decimal

/-- The text of a double from its sign and the text of its size. -/
def floatText (size : Binary → List Char) (x : Float) : String :=
  match Binary64.ofFloat x with
  | .nan => "nan"
  | .infinite negative => infinityText negative
  | .finite negative b => signText negative ++ .ofList (size b)

/-- The fewest digits that read back; positional from `10 ^ -4` up to `10 ^ 16`. -/
def shortestText : Float → String :=
  floatText fun b =>
    (if b.significand = 0 then ⟨0, 0⟩ else Decimal.shortest b).written .shortest

/-- Six significant digits without the zeros at the end; positional from `10 ^ -4` up to
`10 ^ 6`. -/
def generalText : Float → String :=
  floatText fun b =>
    (if b.significand = 0 then ⟨0, 0⟩ else (Decimal.significant b 6).reduce).written .general

/-- A fixed count of digits after the point. -/
def fixedText (places : Nat) : Float → String :=
  floatText fun b => Decimal.fixedLayout places (Decimal.ofBinary b (-places)).coefficient

/-- One digit before the point, a fixed count of digits after it, and an exponent. -/
def scientificText (places : Nat) : Float → String :=
  floatText fun b =>
    if b.significand = 0 then scientificLayout (.replicate (places + 1) '0') 0
    else
      let d := Decimal.significant b (places + 1)
      scientificLayout d.digits d.leading

end EquationSolver
