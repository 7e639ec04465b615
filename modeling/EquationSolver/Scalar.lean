/-!
# Scalars

The solvers work over any type of numbers. Arithmetic, order and decimal literals come from the
standard classes; this module adds what is left: the size of a number, its square root, and the
tests for the special values of floating point. No law is asked of an instance, so the same
definitions run on doubles and can be read over the rationals or the reals.

## Main definitions

* `Scalar`, `SquareRoot`: the operations beyond arithmetic and order
* `IsTiny`: the test by which a pivot, a slope or a denominator counts as zero
* `IsRunaway`: the test by which an iterate counts as diverged
-/

namespace EquationSolver

/-- How a number measures size, and which numbers are special values. -/
class Scalar (α : Type) where
  /-- The absolute value. -/
  modulus : α → α
  /-- Holds of the value that compares with nothing. -/
  isNaN : α → Bool
  /-- Fails for the infinities and for the value that compares with nothing. -/
  isFinite : α → Bool

/-- Numbers with a square root. -/
class SquareRoot (α : Type) where
  /-- The square root. -/
  squareRoot : α → α

export Scalar (modulus)
export SquareRoot (squareRoot)

instance : Scalar Float := ⟨Float.abs, Float.isNaN, Float.isFinite⟩

instance : SquareRoot Float := ⟨Float.sqrt⟩

section

variable {α : Type} [Scalar α] [LT α] [OfScientific α]

/-- A number counts as zero when its modulus is below `1e-12`. -/
def IsTiny (x : α) : Prop := modulus x < (1e-12 : α)

instance [DecidableLT α] (x : α) : Decidable (IsTiny x) :=
  inferInstanceAs (Decidable (modulus x < (1e-12 : α)))

/-- A number counts as diverged when it is not finite or its modulus is above `1e12`. -/
def IsRunaway (x : α) : Prop := Scalar.isFinite x = false ∨ (1e12 : α) < modulus x

instance [DecidableLT α] (x : α) : Decidable (IsRunaway x) :=
  inferInstanceAs (Decidable (_ ∨ _))

end

end EquationSolver
