import EquationSolver.Decimal.Rounding

/-!
# The shortest decimal that reads back

The reals that round to a given double form an interval around it, ends included when the
significand is even. The shortest decimal is the one with the fewest digits in that interval, and
of those the nearest to the double. A decimal grid meets the interval only if one of the double's
two neighbours on the grid lies in it, so those two are all that need testing.

## Main definitions

* `Binary.lowerQuarters`, `Binary.upperQuarters`: the ends of the interval
* `Decimal.onGrid?`: the decimal of the interval on one grid
* `Decimal.shortest`: the shortest decimal of the interval
-/

namespace EquationSolver

namespace Binary

/-- The lower end of the interval that rounds to a positive double, in quarters of its last binary
digit. Below a power of two the doubles lie twice as close. -/
def lowerQuarters (x : Binary) : Nat :=
  if x.significand = hiddenBit ∧ -1074 < x.exponent then 4 * x.significand - 1
  else 4 * x.significand - 2

/-- The upper end of the interval, in the same quarters. -/
def upperQuarters (x : Binary) : Nat := 4 * x.significand + 2

/-- The given count of quarters of the last binary digit, as a number. -/
def quarters (x : Binary) (count : Nat) : Binary := ⟨count, x.exponent - 2⟩

end Binary

namespace Decimal

/-- Whether a point lies in the interval from `low` to `high`, with or without its ends. -/
def inside (closed : Bool) (low high point : Nat) : Bool :=
  if closed then low ≤ point && point ≤ high else low < point && point < high

/-- The multiple of `10 ^ e` that rounds to a positive double and is nearest to it, if there is
one. Of two at the same distance the even one is taken. -/
def onGrid? (x : Binary) (e : Int) : Option Decimal :=
  let (value, unit) := units (x.quarters (4 * x.significand)) e
  let low := (units (x.quarters x.lowerQuarters) e).1
  let high := (units (x.quarters x.upperQuarters) e).1
  let closed := x.significand % 2 == 0
  let below := value / unit
  let above := below + 1
  match inside closed low high (below * unit), inside closed low high (above * unit) with
  | true, true => some ⟨roundDiv value unit, e⟩
  | true, false => some ⟨below, e⟩
  | false, true => some ⟨above, e⟩
  | false, false => none

/-- The shortest decimal that rounds to a positive double. Seventeen digits always suffice. -/
def shortest (x : Binary) : Decimal :=
  let decade := x.decade
  let found := (List.range' 1 17).findSome? fun (digits : Nat) => onGrid? x (decade - digits)
  (found.getD (significant x 17)).reduce

end Decimal

end EquationSolver
