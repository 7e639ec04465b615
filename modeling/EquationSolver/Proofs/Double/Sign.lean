import EquationSolver.Proofs.Double.Arithmetic
import EquationSolver.Proofs.Double.Order

/-!
# Signs of doubles

A rounded result never has the wrong sign, but it may have none: what is at most half the least
positive double vanishes. A product shows whether two doubles have the same sign only if it does not
vanish.

## Main definitions

* `SameSign`, `OppositeSign`: two doubles that are not zero, by their signs
* `ProductVanishes`: two doubles whose product is rounded to zero

## Main results

* `IsNearest.lt_zero_iff`, `IsNearest.zero_lt_iff`: the sign of a rounded result
* `mul_lt_zero_iff`, `zero_lt_mul_iff`: what the sign of a product shows
-/

namespace EquationSolver.Double

open Float.Model (UnpackedFloat)

variable {x y : Float} {v : ℚ} {r : Float}

/-! ## Rounded results -/

/-- A rounded result is negative exactly if the exact one is, and does not vanish. -/
theorem IsNearest.lt_zero_iff (h : IsNearest v r) : r < 0 ↔ v < -underflow := by
  have sides := h.isRounding 0 (by decide)
  rw [number_zero] at sides
  constructor
  · intro negative
    -- The result is not zero, and the exact one is on the same side of zero.
    have away := mt h.beq_zero_iff.mpr (lt_iff_le_not_beq.mp negative).2
    have below : v < 0 := not_le.mp (mt sides.2 (Double.not_le_of_lt negative))
    rw [abs_of_neg below, not_le] at away
    exact lt_neg.mpr away
  · intro below
    have negative : v < 0 := below.trans (neg_neg_of_pos underflow_pos)
    rw [lt_iff_le_not_beq, h.beq_zero_iff, abs_of_neg negative, not_le]
    exact ⟨sides.1 negative.le, lt_neg.mp below⟩

/-- A rounded result is positive exactly if the exact one is, and does not vanish. -/
theorem IsNearest.zero_lt_iff (h : IsNearest v r) : 0 < r ↔ underflow < v := by
  have sides := h.isRounding 0 (by decide)
  rw [number_zero] at sides
  constructor
  · intro positive
    have away := (lt_iff_le_not_beq.mp positive).2
    have above : 0 < v := not_le.mp (mt sides.1 (Double.not_le_of_lt positive))
    rwa [Double.beq_comm, h.beq_zero_iff, abs_of_pos above, not_le] at away
  · intro above
    have positive : 0 < v := underflow_pos.trans above
    rw [lt_iff_le_not_beq, Double.beq_comm, h.beq_zero_iff, abs_of_pos positive, not_le]
    exact ⟨sides.2 positive.le, above⟩

/-! ## Products -/

/-- Both doubles are positive, or both are negative. -/
def SameSign (x y : Float) : Prop := 0 < x ∧ 0 < y ∨ x < 0 ∧ y < 0

/-- One of the doubles is positive and the other one is negative. -/
def OppositeSign (x y : Float) : Prop := x < 0 ∧ 0 < y ∨ 0 < x ∧ y < 0

/-- The exact product of the doubles is at most half the least positive one. -/
def ProductVanishes (x y : Float) : Prop := |number x * number y| ≤ underflow

variable (hx : x.isFinite = true) (hy : y.isFinite = true)
include hx hy

theorem sameSign_iff : SameSign x y ↔ 0 < number x * number y := by
  have zero : (0 : Float).isFinite = true := by decide
  rw [SameSign, lt_iff zero hx, lt_iff zero hy, lt_iff hx zero, lt_iff hy zero, number_zero,
    mul_pos_iff]

theorem oppositeSign_iff : OppositeSign x y ↔ number x * number y < 0 := by
  have zero : (0 : Float).isFinite = true := by decide
  rw [OppositeSign, lt_iff zero hx, lt_iff zero hy, lt_iff hx zero, lt_iff hy zero, number_zero,
    mul_neg_iff, or_comm]

/-- A product is negative exactly for opposite signs, unless it vanishes. -/
theorem mul_lt_zero_iff : x * y < 0 ↔ OppositeSign x y ∧ ¬ ProductVanishes x y := by
  rw [(mul_isNearest hx hy).lt_zero_iff, oppositeSign_iff hx hy, ProductVanishes, not_le]
  constructor
  · intro below
    have negative := below.trans (neg_neg_of_pos underflow_pos)
    exact ⟨negative, by rwa [abs_of_neg negative, lt_neg]⟩
  · rintro ⟨negative, large⟩
    rwa [abs_of_neg negative, lt_neg] at large

/-- A product is positive exactly for the same sign, unless it vanishes. -/
theorem zero_lt_mul_iff : 0 < x * y ↔ SameSign x y ∧ ¬ ProductVanishes x y := by
  rw [(mul_isNearest hx hy).zero_lt_iff, sameSign_iff hx hy, ProductVanishes, not_le]
  constructor
  · intro above
    have positive := underflow_pos.trans above
    exact ⟨positive, by rwa [abs_of_pos positive]⟩
  · rintro ⟨positive, large⟩
    rwa [abs_of_pos positive] at large

end EquationSolver.Double
