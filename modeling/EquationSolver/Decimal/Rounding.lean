import EquationSolver.Decimal.Binary

/-!
# Rounding to a decimal grid

A number is rounded to a multiple of a power of ten in exact arithmetic; the midpoint between two
multiples goes to the even one.

## Main definitions

* `Decimal`: a whole number times a power of ten
* `roundDiv`: a quotient of whole numbers to the nearest whole number
* `Decimal.ofBinary`: the multiple of `10 ^ e` nearest to a number
* `Decimal.significant`: the number with a given count of digits that is nearest
-/

namespace EquationSolver

/-- The non-negative number `coefficient * 10 ^ exponent`. -/
structure Decimal where
  /-- The whole number that the power of ten scales. -/
  coefficient : Nat
  /-- The exponent of the power of ten. -/
  exponent : Int

/-- The whole number nearest to `num / den`, the even one of two. -/
def roundDiv (num den : Nat) : Nat :=
  let q := num / den
  let r := num % den
  if 2 * r < den then q else if den < 2 * r then q + 1 else if q % 2 = 0 then q else q + 1

namespace Decimal

/-- The fraction that a number is of `10 ^ e`, as numerator and denominator. -/
def units (x : Binary) (e : Int) : Nat × Nat :=
  (x.num * Nat.pow 10 (-e).toNat, x.den * Nat.pow 10 e.toNat)

/-- The multiple of `10 ^ e` nearest to a number. -/
def ofBinary (x : Binary) (e : Int) : Decimal :=
  ⟨roundDiv (units x e).1 (units x e).2, e⟩

/-- The number of `digits` digits nearest to a positive double. When the digits round up to a power
of ten, the last zero is dropped and the exponent grows. -/
def significant (x : Binary) (digits : Nat) : Decimal :=
  let d := ofBinary x (x.decade - digits)
  if d.coefficient = Nat.pow 10 digits then ⟨Nat.pow 10 (digits - 1), d.exponent + 1⟩ else d

/-- The digits of the coefficient. -/
def digits (d : Decimal) : List Char := Nat.toDigits 10 d.coefficient

/-- The exponent `e` with which the number is written `d.ddd * 10 ^ e`. -/
def leading (d : Decimal) : Int := d.exponent + d.digits.length - 1

/-- The same number with no zero at the end of its coefficient; zero itself has exponent zero. -/
def reduce (d : Decimal) : Decimal :=
  if h : d.coefficient = 0 then ⟨0, 0⟩
  else if d.coefficient % 10 = 0 then reduce ⟨d.coefficient / 10, d.exponent + 1⟩ else d
termination_by d.coefficient
decreasing_by exact Nat.div_lt_self (Nat.pos_of_ne_zero h) (by decide)

end Decimal

end EquationSolver
