import EquationSolver.Decimal.Rounding

/-!
# Number literals

A literal has digits with or without a point, on either side of it, and an optional exponent. The
longest literal at the start of a text is taken, and it stands for the double nearest to it.

## Main definitions

* `Literal`: the parts of a literal, with its text and its value
* `Literal.scan?`: the longest literal at the start of a text
* `Decimal.toFloat`: the double nearest to a decimal

## Main results

* `Literal.scan?_text`: the literal and what follows it make up the text
-/

namespace EquationSolver

/-- A digit between `0` and `9`. -/
def isAsciiDigit (c : Char) : Bool := '0' ≤ c && c ≤ '9'

/-- The whole number written by a row of digits. -/
def digitsValue (cs : List Char) : Nat := cs.foldl (fun n c => 10 * n + (c.toNat - '0'.toNat)) 0

/-- The double nearest to a decimal with the given sign. Decimals from `10 ^ 310` on are infinite
and those below `10 ^ -330` are zero, whatever their exponent. -/
def Decimal.toFloat (negative : Bool) (d : Decimal) : Float :=
  let point := d.exponent + digitCount d.coefficient
  let size : Float :=
    if d.coefficient = 0 ∨ point < -330 then 0.0
    else if 310 < point then 1.0 / 0.0
    else Float.ofScientific d.coefficient (d.exponent < 0) d.exponent.natAbs
  if negative then -size else size

/-- The parts of a number literal, in order. -/
structure Literal where
  /-- The digits before the point. -/
  whole : List Char
  /-- The point, if there is one. -/
  point : List Char
  /-- The digits after the point. -/
  fraction : List Char
  /-- The letter of the exponent and its sign, if there is an exponent. -/
  mark : List Char
  /-- The digits of the exponent. -/
  scale : List Char

namespace Literal

/-- The literal as it is written. -/
def text (l : Literal) : List Char := l.whole ++ l.point ++ l.fraction ++ l.mark ++ l.scale

/-- The decimal that the literal writes. -/
def decimal (l : Literal) : Decimal :=
  let scale : Int := digitsValue l.scale
  ⟨digitsValue (l.whole ++ l.fraction),
    (if '-' ∈ l.mark then -scale else scale) - (l.fraction.length : Int)⟩

/-- The double nearest to the literal. -/
def toFloat (l : Literal) : Float := l.decimal.toFloat false

/-- The point at the start of a text. -/
def scanPoint : List Char → List Char × List Char
  | '.' :: rest => (['.'], rest)
  | cs => ([], cs)

/-- The sign at the start of a text. -/
def scanSign : List Char → List Char × List Char
  | c :: rest => if c = '+' ∨ c = '-' then ([c], rest) else ([], c :: rest)
  | [] => ([], [])

/-- The exponent at the start of a text: its mark, its digits and the rest. A letter without digits
after it is no exponent. -/
def scanExponent : List Char → List Char × List Char × List Char
  | [] => ([], [], [])
  | c :: rest =>
    let (sign, rest') := scanSign rest
    if (c = 'e' ∨ c = 'E') ∧ rest'.takeWhile isAsciiDigit ≠ [] then
      (c :: sign, rest'.takeWhile isAsciiDigit, rest'.dropWhile isAsciiDigit)
    else ([], [], c :: rest)

/-- The digits at the start of a text, if a point came before them. -/
def scanFraction (point cs : List Char) : List Char × List Char :=
  if point = [] then ([], cs) else (cs.takeWhile isAsciiDigit, cs.dropWhile isAsciiDigit)

/-- The longest literal at the start of a text, and the rest of the text. -/
def scan? (cs : List Char) : Option (Literal × List Char) :=
  let whole := cs.takeWhile isAsciiDigit
  let (point, afterPoint) := scanPoint (cs.dropWhile isAsciiDigit)
  let (fraction, afterFraction) := scanFraction point afterPoint
  let (mark, scale, rest) := scanExponent afterFraction
  if whole = [] ∧ fraction = [] then none else some (⟨whole, point, fraction, mark, scale⟩, rest)

theorem scanPoint_append (cs : List Char) : (scanPoint cs).1 ++ (scanPoint cs).2 = cs := by
  unfold scanPoint; split <;> rfl

theorem scanSign_append (cs : List Char) : (scanSign cs).1 ++ (scanSign cs).2 = cs := by
  unfold scanSign; split
  · split <;> rfl
  · rfl

theorem scanFraction_append (point cs : List Char) :
    (scanFraction point cs).1 ++ (scanFraction point cs).2 = cs := by
  unfold scanFraction; split
  · rfl
  · exact List.takeWhile_append_dropWhile

theorem scanExponent_append (cs : List Char) :
    (scanExponent cs).1 ++ ((scanExponent cs).2.1 ++ (scanExponent cs).2.2) = cs := by
  unfold scanExponent
  split
  · rfl
  · rename_i c rest
    dsimp only
    split
    · rw [List.takeWhile_append_dropWhile, List.cons_append, scanSign_append]
    · rfl

/-- A scanned literal and what follows it make up the text. -/
theorem scan?_text {cs rest : List Char} {l : Literal} (h : scan? cs = some (l, rest)) :
    l.text ++ rest = cs := by
  simp only [scan?, Option.ite_none_left_eq_some, Option.some.injEq, Prod.mk.injEq] at h
  obtain ⟨-, rfl, rfl⟩ := h
  simp only [text, List.append_assoc, scanExponent_append, scanFraction_append, scanPoint_append,
    List.takeWhile_append_dropWhile]

/-- A scanned literal takes at least one character. -/
theorem length_lt_of_scan? {cs rest : List Char} {l : Literal} (h : scan? cs = some (l, rest)) :
    rest.length < cs.length := by
  have text := congrArg List.length (scan?_text h)
  simp only [scan?, Option.ite_none_left_eq_some, Option.some.injEq, Prod.mk.injEq] at h
  obtain ⟨nonempty, rfl, rfl⟩ := h
  simp only [← List.length_eq_zero_iff] at nonempty
  simp only [Literal.text, List.length_append] at text
  omega

end Literal

end EquationSolver
