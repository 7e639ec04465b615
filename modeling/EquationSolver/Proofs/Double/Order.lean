import EquationSolver.Proofs.Double.Value

/-!
# The order of doubles

Every double but one has a place among the extended reals, the finite ones that of the number they
stand for. The one that is not a number compares with nothing, so that doubles that compare at all
compare as their places do.

## Main definitions

* `place`: the place of a double in the order

## Main results

* `le_iff_place`, `lt_iff_place`, `beq_iff_place`: the comparisons of doubles
* `le_trans`, `lt_of_lt_of_le`: they can be put together
* `not_le_iff`: one of two numbers is not above the other
-/

namespace EquationSolver.Double

open Float.Model (UnpackedFloat)

/-- The place of an unpacked double in the order, if it has one. -/
noncomputable def place : UnpackedFloat → Option EReal
  | .notANumber => none
  | .infinity .negative => some ⊥
  | .infinity .positive => some ⊤
  | u => some ((value u : ℝ) : EReal)

theorem place_of_canonical {u : UnpackedFloat} (h : Canonical u) :
    place u = some ((value u : ℝ) : EReal) := by
  match u, h with
  | .zero _, _ => rfl
  | .finite .., _ => rfl

theorem compare_coe (p q : ℚ) : compare ((p : ℝ) : EReal) ((q : ℝ) : EReal) = compare p q := by
  rcases lt_trichotomy p q with lt | rfl | gt
  · rw [compare_lt_iff_lt.mpr lt, compare_lt_iff_lt]
    exact EReal.coe_lt_coe_iff.mpr (Rat.cast_lt.mpr lt)
  · rw [compare_eq_iff_eq.mpr rfl, compare_eq_iff_eq.mpr rfl]
  · rw [compare_gt_iff_gt.mpr gt, compare_gt_iff_gt]
    exact EReal.coe_lt_coe_iff.mpr (Rat.cast_lt.mpr gt)

/-- An unpacked double is in canonical form, or a special value. -/
theorem canonical_or_special (x : Float) :
    Canonical x.toModel.unpack ∨ (∃ s, x.toModel.unpack = .infinity s) ∨
      x.toModel.unpack = .notANumber := by
  match unpacked : x.toModel.unpack with
  | .zero _ => exact .inl trivial
  | .finite .. => exact .inl (finite_unpack unpacked).1
  | .infinity s => exact .inr (.inl ⟨s, rfl⟩)
  | .notANumber => exact .inr (.inr rfl)

theorem compare_infinity {u : UnpackedFloat} (h : Canonical u) :
    u.compare (.infinity .positive) = some .lt ∧ u.compare (.infinity .negative) = some .gt ∧
      UnpackedFloat.compare (.infinity .positive) u = some .gt ∧
      UnpackedFloat.compare (.infinity .negative) u = some .lt := by
  match u, h with
  | .zero _, _ => exact ⟨rfl, rfl, rfl, rfl⟩
  | .finite .positive .., _ => exact ⟨rfl, rfl, rfl, rfl⟩
  | .finite .negative .., _ => exact ⟨rfl, rfl, rfl, rfl⟩

/-- Doubles compare as their places do. -/
theorem compare_unpack (x y : Float) :
    x.toModel.unpack.compare y.toModel.unpack =
      Option.map₂ compare (place x.toModel.unpack) (place y.toModel.unpack) := by
  -- Numbers are compared by their values, and an infinity by its sign.
  rcases canonical_or_special x with cx | ⟨s, sx⟩ | nx
  · rw [place_of_canonical cx]
    rcases canonical_or_special y with cy | ⟨s, sy⟩ | ny
    · rw [place_of_canonical cy, compare_eq_compare_value cx cy]
      exact congrArg some (compare_coe _ _).symm
    · rw [sy]
      cases s with
      | positive =>
        rw [(compare_infinity cx).1]
        exact congrArg some (compare_lt_iff_lt.mpr (EReal.coe_lt_top _)).symm
      | negative =>
        rw [(compare_infinity cx).2.1]
        exact congrArg some (compare_gt_iff_gt.mpr (EReal.bot_lt_coe _)).symm
    · rw [ny]
      generalize x.toModel.unpack = u
      cases u <;> rfl
  · rw [sx]
    rcases canonical_or_special y with cy | ⟨s', sy⟩ | ny
    · rw [place_of_canonical cy]
      cases s with
      | positive =>
        rw [(compare_infinity cy).2.2.1]
        exact congrArg some (compare_gt_iff_gt.mpr (EReal.coe_lt_top _)).symm
      | negative =>
        rw [(compare_infinity cy).2.2.2]
        exact congrArg some (compare_lt_iff_lt.mpr (EReal.bot_lt_coe _)).symm
    · rw [sy]
      match s, s' with
      | .positive, .positive => exact congrArg some (compare_eq_iff_eq.mpr rfl).symm
      | .positive, .negative => exact congrArg some (compare_gt_iff_gt.mpr bot_lt_top).symm
      | .negative, .positive => exact congrArg some (compare_lt_iff_lt.mpr bot_lt_top).symm
      | .negative, .negative => exact congrArg some (compare_eq_iff_eq.mpr rfl).symm
    · rw [ny]
      cases s <;> rfl
  · rw [nx]
    rfl

variable {x y z : Float}

theorem le_iff_place : x ≤ y ↔
    ∃ p ∈ place x.toModel.unpack, ∃ q ∈ place y.toModel.unpack, p ≤ q := by
  rw [le_iff_unpack, UnpackedFloat.le, compare_unpack]
  cases place x.toModel.unpack <;> cases place y.toModel.unpack <;>
    simp [compare_le_iff_le, Ordering.isLE_iff_ne_gt]

theorem lt_iff_place : x < y ↔
    ∃ p ∈ place x.toModel.unpack, ∃ q ∈ place y.toModel.unpack, p < q := by
  rw [lt_iff_unpack, UnpackedFloat.lt, compare_unpack]
  cases place x.toModel.unpack <;> cases place y.toModel.unpack <;>
    simp [compare_lt_iff_lt]

theorem beq_iff_place : (x == y) = true ↔
    ∃ p ∈ place x.toModel.unpack, ∃ q ∈ place y.toModel.unpack, p = q := by
  change x.toModel.unpack.beq y.toModel.unpack = true ↔ _
  rw [UnpackedFloat.beq, compare_unpack]
  cases place x.toModel.unpack <;> cases place y.toModel.unpack <;>
    simp
  exact eq_comm

protected theorem beq_comm (x y : Float) : (x == y) = (y == x) := by
  rw [Bool.eq_iff_iff, beq_iff_place, beq_iff_place]
  exact ⟨fun ⟨p, hp, q, hq, equal⟩ => ⟨q, hq, p, hp, equal.symm⟩,
    fun ⟨p, hp, q, hq, equal⟩ => ⟨q, hq, p, hp, equal.symm⟩⟩

/-- Below is at most and not equal. -/
theorem lt_iff_le_not_beq : x < y ↔ x ≤ y ∧ ¬ (x == y) = true := by
  rw [lt_iff_place, le_iff_place, beq_iff_place]
  cases place x.toModel.unpack <;> cases place y.toModel.unpack <;>
    simp [lt_iff_le_and_ne]
  exact fun _ => not_congr eq_comm

protected theorem not_le_of_lt (h : x < y) : ¬ y ≤ x := by
  rw [lt_iff_place] at h
  rw [le_iff_place]
  obtain ⟨p, hp, q, hq, lt⟩ := h
  rintro ⟨q', hq', p', hp', le⟩
  obtain rfl := Option.mem_unique hp hp'
  obtain rfl := Option.mem_unique hq hq'
  exact le.not_gt lt

protected theorem le_trans (h : x ≤ y) (h' : y ≤ z) : x ≤ z := by
  rw [le_iff_place] at *
  obtain ⟨p, hp, q, hq, le⟩ := h
  obtain ⟨q', hq', r, hr, le'⟩ := h'
  obtain rfl : q = q' := Option.mem_unique hq hq'
  exact ⟨p, hp, r, hr, le.trans le'⟩

protected theorem lt_of_lt_of_le (h : x < y) (h' : y ≤ z) : x < z := by
  rw [lt_iff_place] at *
  rw [le_iff_place] at h'
  obtain ⟨p, hp, q, hq, lt⟩ := h
  obtain ⟨q', hq', r, hr, le⟩ := h'
  obtain rfl : q = q' := Option.mem_unique hq hq'
  exact ⟨p, hp, r, hr, lt.trans_le le⟩

/-- A number is above another double that compares with something, unless it is at most that. -/
theorem not_le_iff (hx : x.isFinite = true) (hy : z < y) : ¬ x ≤ y ↔ y < x := by
  rw [lt_iff_place] at *
  rw [le_iff_place, place_of_canonical (canonical_unpack hx)]
  obtain ⟨-, -, q, hq, -⟩ := hy
  rw [Option.mem_def] at hq
  simp [hq]

end EquationSolver.Double
