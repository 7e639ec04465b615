/-!
# Doubles as exact numbers

A finite double is a whole number times a power of two. This module reads both off its bits, so
that the text of a number can be found in exact arithmetic.

## Main definitions

* `Binary`: a non-negative number `significand * 2 ^ exponent`
* `Binary64.ofFloat`: what a double stands for
* `digitCount`, `Binary.decade`: the number of decimal digits before the point
-/

namespace EquationSolver

/-- The non-negative number `significand * 2 ^ exponent`. -/
structure Binary where
  /-- The whole number that the power of two scales. -/
  significand : Nat
  /-- The exponent of the power of two. -/
  exponent : Int

/-- What a double stands for. -/
inductive Binary64 where
  /-- No number. -/
  | nan
  /-- An infinity. -/
  | infinite (negative : Bool)
  /-- A number given by its sign and its size; zero has a sign too. -/
  | finite (negative : Bool) (size : Binary)

/-- The bit in front of the 52 bits of the fraction, which is not stored. -/
def hiddenBit : Nat := 0x10000000000000

/-- The double with the given bits: a sign bit, eleven bits of exponent and 52 of fraction. -/
def Binary64.ofBits (bits : Nat) : Binary64 :=
  let negative := bits / 0x8000000000000000 % 2 == 1
  let scale : Nat := bits / hiddenBit % 2048
  let fraction : Nat := bits % hiddenBit
  if scale = 2047 then
    if fraction = 0 then .infinite negative else .nan
  else if scale = 0 then .finite negative ⟨fraction, -1074⟩
  else .finite negative ⟨hiddenBit + fraction, (scale : Int) - 1075⟩

/-- What a double stands for. -/
def Binary64.ofFloat (x : Float) : Binary64 := .ofBits x.toBits.toNat

/-- The number of decimal digits of a whole number; zero has one digit. Long numbers are shortened
by sixteen digits at a time. -/
def digitCount (n : Nat) : Nat :=
  if n < 10 then 1
  else if n < 10000000000000000 then digitCount (n / 10) + 1
  else digitCount (n / 10000000000000000) + 16

namespace Binary

/-- The numerator of the number as a fraction of whole numbers. -/
def num (x : Binary) : Nat := x.significand * Nat.pow 2 x.exponent.toNat

/-- The denominator of the number as a fraction of whole numbers. -/
def den (x : Binary) : Nat := Nat.pow 2 (-x.exponent).toNat

/-- The exponent `k` with `10 ^ (k - 1) ≤ x < 10 ^ k`, for a positive double. Every positive double
is above `10 ^ -324`, so scaling by `10 ^ 324` leaves a whole part whose digits can be counted. -/
def decade (x : Binary) : Int := (digitCount (x.num * Nat.pow 10 324 / x.den) : Int) - 324

end Binary

end EquationSolver
