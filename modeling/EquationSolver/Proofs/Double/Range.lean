import EquationSolver.Proofs.Double.Arithmetic

/-!
# Operations that stay in the range of doubles

A sum, a difference and a product are finite exactly if both operands are and the exact result is
below the middle behind the largest double. A quotient may also be finite because its divisor is
infinite. What is no number or infinite is never lost in any other way, so that a finite result
tells of finite operands.

## Main results

* `isFinite_add_iff`, `isFinite_sub_iff`, `isFinite_mul_iff`, `isFinite_div_iff`: when the result of
  an operation is finite
-/

namespace EquationSolver.Double

open Float.Model

variable {x y : Float} {u w : UnpackedFloat}

/-! ## Special values -/

/-- A special value stays one when it is packed. -/
theorem isFinite_pack_of_special (h : u.isFinite = false) :
    (⟨Float.Model.pack u⟩ : Float).isFinite = false := by
  match u, h with
  | .infinity s, _ => cases s <;> rfl
  | .notANumber, _ => rfl

theorem isFinite_neg (u : UnpackedFloat) : u.neg.isFinite = u.isFinite := by
  cases u <;> rfl

theorem isFinite_add_of_special (h : u.isFinite = false ∨ w.isFinite = false) :
    (UnpackedFloat.add .binary64 u w).isFinite = false := by
  match u, w, h with
  | .notANumber, _, _ => rfl
  | .infinity s, .infinity t, _ => cases s <;> cases t <;> rfl
  | .infinity _, .notANumber, _ | .zero _, .notANumber, _ | .finite .., .notANumber, _ => rfl
  | .infinity _, .zero _, _ | .infinity _, .finite .., _ => rfl
  | .zero _, .infinity _, _ | .finite .., .infinity _, _ => rfl

theorem isFinite_mul_of_special (h : u.isFinite = false ∨ w.isFinite = false) :
    (UnpackedFloat.mul .binary64 u w).isFinite = false := by
  match u, w, h with
  | .notANumber, _, _ => rfl
  | .infinity _, .infinity _, _ => rfl
  | .infinity _, .notANumber, _ | .zero _, .notANumber, _ | .finite .., .notANumber, _ => rfl
  | .infinity _, .zero _, _ | .infinity _, .finite .., _ => rfl
  | .zero _, .infinity _, _ | .finite .., .infinity _, _ => rfl

theorem isFinite_div_of_special (h : u.isFinite = false ∨ w.isNaN = true) :
    (UnpackedFloat.div .binary64 u w).isFinite = false := by
  match u, w, h with
  | .notANumber, _, _ => rfl
  | .infinity _, .notANumber, _ | .zero _, .notANumber, _ | .finite .., .notANumber, _ => rfl
  | .infinity _, .infinity _, _ | .infinity _, .zero _, _ | .infinity _, .finite .., _ => rfl

/-- Division by an infinite double is the one operation that loses a special value. -/
theorem div_infinity (h : u.isFinite = true) (s : UnpackedFloat.Sign) :
    ∃ t, UnpackedFloat.div .binary64 u (.infinity s) = .zero t := by
  match u, h with
  | .zero t, _ | .finite t .., _ => exact ⟨t / s, rfl⟩

/-! ## Operations -/

/-- An operation that rounds the exact result of finite operands, and keeps special ones special. -/
theorem isFinite_iff_of_isNearest {v : ℚ} {r : Float}
    (nearest : x.isFinite = true → y.isFinite = true → IsNearest v r)
    (special : x.isFinite = false ∨ y.isFinite = false → r.isFinite = false) :
    r.isFinite = true ↔ x.isFinite = true ∧ y.isFinite = true ∧ |v| < overflow := by
  by_cases finite : x.isFinite = true ∧ y.isFinite = true
  · rw [(nearest finite.1 finite.2).isFinite_iff, and_iff_right finite.1, and_iff_right finite.2]
  · have lost : x.isFinite = false ∨ y.isFinite = false := by
      rwa [not_and_or, Bool.not_eq_true, Bool.not_eq_true] at finite
    rw [special lost]
    exact iff_of_false nofun fun h => finite ⟨h.1, h.2.1⟩

theorem isFinite_add_iff : (x + y).isFinite = true ↔
    x.isFinite = true ∧ y.isFinite = true ∧ |number x + number y| < overflow :=
  isFinite_iff_of_isNearest add_isNearest fun special =>
    isFinite_pack_of_special (isFinite_add_of_special special)

theorem isFinite_sub_iff : (x - y).isFinite = true ↔
    x.isFinite = true ∧ y.isFinite = true ∧ |number x - number y| < overflow := by
  refine isFinite_iff_of_isNearest sub_isNearest fun special => ?_
  apply isFinite_pack_of_special
  rw [sub_eq_add_neg_unpacked]
  apply isFinite_add_of_special
  rwa [isFinite_neg]

theorem isFinite_mul_iff : (x * y).isFinite = true ↔
    x.isFinite = true ∧ y.isFinite = true ∧ |number x * number y| < overflow :=
  isFinite_iff_of_isNearest mul_isNearest fun special =>
    isFinite_pack_of_special (isFinite_mul_of_special special)

theorem isFinite_cases (y : Float) :
    y.isFinite = true ∨ (∃ s, y.toModel.unpack = .infinity s) ∨ y.isNaN = true := by
  change y.toModel.unpack.isFinite = true ∨ _ ∨ y.toModel.unpack.isNaN = true
  match y.toModel.unpack with
  | .zero _ | .finite .. => exact .inl rfl
  | .infinity s => exact .inr (.inl ⟨s, rfl⟩)
  | .notANumber => exact .inr (.inr rfl)

/-- A quotient is also finite if its divisor is infinite. -/
theorem isFinite_div_iff (nonzero : (y == 0) = false) : (x / y).isFinite = true ↔
    x.isFinite = true ∧ y.isNaN = false ∧
      (y.isFinite = true → |number x / number y| < overflow) := by
  by_cases lost : x.isFinite = false ∨ y.isNaN = true
  · have special : (x / y).isFinite = false :=
      isFinite_pack_of_special (isFinite_div_of_special lost)
    rw [special]
    refine iff_of_false nofun fun h => lost.elim ?_ ?_
    · rw [h.1]; exact nofun
    · rw [h.2.1]; exact nofun
  rw [not_or, Bool.not_eq_false, Bool.not_eq_true] at lost
  obtain ⟨hx, ordered⟩ := lost
  rw [and_iff_right hx, and_iff_right ordered]
  rcases isFinite_cases y with hy | ⟨s, infinite⟩ | none
  · have away : number y ≠ 0 := by
      rw [← number_zero, Ne, ← beq_iff hy (by decide), nonzero]
      exact nofun
    rw [(div_isNearest hx hy away).isFinite_iff, imp_iff_right hy]
  · obtain ⟨t, quotient⟩ := div_infinity (u := x.toModel.unpack) hx s
    have zero : x / y = ⟨Float.Model.pack (.zero t)⟩ := by
      rw [← quotient, ← infinite]
      rfl
    have special : ¬ y.isFinite = true := by
      change ¬ y.toModel.unpack.isFinite = true
      rw [infinite]
      exact nofun
    rw [zero]
    exact iff_of_true (by cases t <;> rfl) fun hy => (special hy).elim
  · rw [none] at ordered
    cases ordered

end EquationSolver.Double
