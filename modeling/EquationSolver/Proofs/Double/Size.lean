import EquationSolver.Proofs.Double.Arithmetic
import EquationSolver.Root.Bracketing
import EquationSolver.Root.Open

/-!
# Sizes of doubles

The solvers compare doubles with thresholds: below `1e-12` a divisor counts as zero, and above
`1e12` an iterate counts as diverged. What passes these tests can be divided by, and the midpoint of
two iterates that have not diverged has not diverged either, whatever rounding does.

## Main results

* `not_isRunaway_iff`: what has not diverged is a number of limited size
* `not_isRunaway_midpoint`: the midpoint of two such numbers is one
* `beq_zero_of_not_isTiny`, `beq_zero_differenceStep`: divisors that are not zero
-/

namespace EquationSolver.Double

open Float.Model
open Root (differenceStep)

variable {x y : Float}

/-! ## The modulus -/

theorem finite_modulus (h : x.isFinite = true) :
    (modulus x).isFinite = true ∧ number (modulus x) = |number x| := by
  have canonical : Canonical x.toModel.unpack.abs ∧
      value x.toModel.unpack.abs = |value x.toModel.unpack| := by
    have hx := canonical_unpack h
    match x.toModel.unpack, hx with
    | .zero s, _ => exact ⟨trivial, abs_zero.symm⟩
    | .finite s m e pos, hx =>
      refine ⟨hx, ?_⟩
      rw [value, abs_signed, abs_of_pos (value_pos pos)]
      rfl
  have kept : (Float.Model.pack x.toModel.unpack.abs).unpack = x.toModel.unpack.abs := by
    rcases unpack_pack_eq_or canonical.1 with kept | ⟨s, -, large⟩
    · exact kept
    · -- The modulus is no larger than the double itself.
      have inside := abs_number_lt x
      have := (le_abs_self _).trans_eq (abs_signed s (value x.toModel.unpack.abs))
      rw [canonical.2, abs_abs] at this
      exact absurd (large.trans (canonical.2 ▸ this)) inside.not_ge
  have unpacked : (modulus x).toModel.unpack = x.toModel.unpack.abs := kept
  have finite : (modulus x).toModel.unpack.isFinite = true := unpacked ▸ canonical.1.isFinite
  refine ⟨finite, ?_⟩
  rw [number, unpacked]
  exact canonical.2

theorem number_1e12 : number 1e12 = 10 ^ 12 := by decide +kernel

theorem not_isRunaway_iff : ¬ IsRunaway x ↔ x.isFinite = true ∧ |number x| ≤ 10 ^ 12 := by
  rw [IsRunaway, not_or, Bool.not_eq_false]
  apply and_congr_right
  intro h
  obtain ⟨finite, size⟩ := finite_modulus h
  rw [lt_iff (by decide) finite, not_lt, size, number_1e12]

/-- The midpoint of two numbers of limited size is no larger than the larger of them, even after the
sum was rounded. -/
theorem not_isRunaway_midpoint (hx : ¬ IsRunaway x) (hy : ¬ IsRunaway y) :
    ¬ IsRunaway ((x + y) / 2.0) := by
  rw [not_isRunaway_iff, abs_le] at *
  have low : number (-2e12) = -(2 * 10 ^ 12) := by decide +kernel
  have high : number 2e12 = 2 * 10 ^ 12 := by decide +kernel
  have two : number 2.0 = 2 := by decide +kernel
  have low' : number (-1e12) = -10 ^ 12 := by decide +kernel
  -- The bounds are doubles themselves, so that rounding the sum and its half keeps them.
  obtain ⟨finite, left, right⟩ := (add_isRounding hx.1 hy.1).between (a := -2e12) (b := 2e12)
    (by decide) (by decide) (by linarith) (by linarith)
  have half := div_isRounding finite (y := 2.0) (by decide) (by rw [two]; exact two_ne_zero)
  rw [two] at half
  obtain ⟨finite, left, right⟩ := half.between (a := -1e12) (b := 1e12) (by decide) (by decide)
    (by linarith) (by rw [number_1e12]; linarith)
  rw [low', number_1e12] at *
  exact ⟨finite, left, right⟩

/-! ## Divisors -/

/-- A double that counts as no zero is none. -/
theorem beq_zero_of_not_isTiny (h : ¬ IsTiny x) : (x == 0) = false := by
  have modulus_eq : modulus x = ⟨Float.Model.pack x.toModel.unpack.abs⟩ := rfl
  change UnpackedFloat.beq x.toModel.unpack (.zero .positive) = false
  rw [IsTiny, modulus_eq] at h
  match x.toModel.unpack, h with
  -- The zeros of both signs have the same modulus, and nothing else is equal to zero.
  | .zero _, h =>
    have tiny : (⟨Float.Model.pack (.zero .positive)⟩ : Float) < 1e-12 := by decide +kernel
    exact absurd tiny h
  | .finite .positive .., _ => rfl
  | .finite .negative .., _ => rfl
  | .infinity .positive, _ => rfl
  | .infinity .negative, _ => rfl
  | .notANumber, _ => rfl

theorem le_of_beq (h : (x == y) = true) : x ≤ y := by
  rw [le_iff_unpack]
  change x.toModel.unpack.beq y.toModel.unpack = true at h
  rw [UnpackedFloat.beq, beq_iff_eq] at h
  rw [UnpackedFloat.le, h]
  rfl

/-- What is not below a positive double is not zero. -/
theorem beq_zero_of_le (hx : x.isFinite = true) (pos : 0 < number x) (h : x ≤ y) :
    (y == 0) = false := by
  rw [← Bool.not_eq_true]
  intro zero
  have hy : y.isFinite = true := finite_of_le_of_le hx (by decide) h (le_of_beq zero)
  rw [beq_iff hy (by decide)] at zero
  rw [le_iff hx hy, zero] at h
  exact absurd h (pos.trans_le' (by decide +kernel)).not_ge

/-- A positive number that is not tiny stays so when it is doubled. -/
theorem beq_zero_two_mul (hy : y.isFinite = true) (one : 1 ≤ number y) :
    (2.0 * (1e-6 * y) == 0) = false := by
  have step : 0 < number 1e-6 ∧ number 1e-6 ≤ 1 := by decide +kernel
  have two : number 2.0 = 2 := by decide +kernel
  obtain ⟨finite, left, -⟩ := (mul_isRounding (x := 1e-6) (by decide) hy).between
    (a := 1e-6) (b := y) (by decide) hy (le_mul_of_one_le_right step.1.le one)
    (mul_le_of_le_one_left (zero_le_one.trans one) step.2)
  have doubled := mul_isRounding (x := 2.0) (by decide) finite
  rw [two] at doubled
  exact beq_zero_of_le (by decide) step.1 ((doubled 1e-6 (by decide)).2 (by linarith))

/-- The step of the central difference is not zero, for any point. -/
theorem beq_zero_differenceStep (x : Float) : (2.0 * differenceStep x == 0) = false := by
  rw [differenceStep]
  by_cases h : x.isFinite = true
  · obtain ⟨finite, -⟩ := finite_modulus h
    have one : number 1.0 = 1 := by decide +kernel
    by_cases large : 1.0 < modulus x
    · rw [if_pos large]
      rw [lt_iff (by decide) finite, one] at large
      exact beq_zero_two_mul finite large.le
    · rw [if_neg large]
      exact beq_zero_two_mul (by decide) one.ge
  · -- Infinite steps are left, and the step of one at what is no number.
    have modulus_eq : modulus x = ⟨Float.Model.pack x.toModel.unpack.abs⟩ := rfl
    change ¬ x.toModel.unpack.isFinite = true at h
    rw [modulus_eq]
    match x.toModel.unpack, h with
    | .infinity s, _ => cases s <;> decide +kernel
    | .notANumber, _ => decide +kernel

end EquationSolver.Double
