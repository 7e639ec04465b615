import EquationSolver.Proofs.Double.Rounding

/-!
# Rounding to the nearest double

The two bits behind the last one that is kept say on which side of the middle between two doubles
the exact result is, so that it is rounded to the nearer one, and from the middle itself to the even
one. At the two ends of the range this decides what becomes of a result. It vanishes if it is at
most half the least positive double, and it is too large if it is at least halfway from the largest
double to the next power of two.

## Main definitions

* `HalfCut`: the bits behind a mantissa show where between two whole numbers a number is
* `RoundedFrom`: a result is an exact one, rounded
* `Kept`: the mantissa that is rounded, at the last bit that is kept
* `underflow`, `overflow`: up to where a result vanishes, and from where it is too large

## Main results

* `HalfCut.lt_roundedMantissa_iff`: when the rounded mantissa is above a whole number
* `RoundedFrom.rounds`: a result is on the right side of every double
* `RoundedFrom.vanishes_iff`, `RoundedFrom.bounded_iff`: the two ends of the range
-/

namespace EquationSolver.Double

open Float.Model
open Float.Model.UnpackedFloat (Sign Accuracy ExtendedMantissa roundWithAccuracy
  shiftToTargetExponent)

/-! ## The middle between two whole numbers -/

/-- The mantissa is a number cut off, the first bit behind it says whether the number reaches the
middle, and the second one is not set exactly at the whole number and at the middle. -/
structure HalfCut (em : ExtendedMantissa) (q : ℚ) : Prop where
  /-- The mantissa is not above the number. -/
  le : em.mantissa ≤ q
  /-- The next whole number is. -/
  lt : q < em.mantissa + 1
  /-- The first bit is set from the middle on. -/
  round : em.roundBit = true ↔ em.mantissa + 1 / 2 ≤ q
  /-- The second bit is not set where a number has no further ones. -/
  sticky : em.stickyBit = false ↔ q = em.mantissa ∨ q = em.mantissa + 1 / 2

theorem HalfCut.cutOff {em : ExtendedMantissa} {q : ℚ} (h : HalfCut em q) : CutOff em q where
  le := h.le
  lt := h.lt
  exact whole := by
    refine ⟨?_, h.sticky.mpr (.inl whole)⟩
    rw [← Bool.not_eq_true, h.round]
    linarith

theorem halfCut_exact (m : ℕ) : HalfCut (.ofMantissaAndAccuracy m .exact) m where
  le := le_rfl
  lt := lt_add_one _
  round := iff_of_false nofun (by norm_num [ExtendedMantissa.ofMantissaAndAccuracy])
  sticky := iff_of_true rfl (.inl rfl)

/-- The bit that is cut off becomes the first one behind the mantissa. -/
theorem HalfCut.shiftRightOne {em : ExtendedMantissa} {q : ℚ} (h : HalfCut em q) :
    HalfCut em.shiftRightOne (q / 2) := by
  obtain ⟨m, round, sticky⟩ := em
  obtain ⟨le, lt, hr, hs⟩ := h
  dsimp only at le lt hr hs
  have parts : (m : ℚ) = 2 * (m / 2 : ℕ) + (m % 2 : ℕ) := by
    exact_mod_cast (Nat.div_add_mod m 2).symm
  -- Nothing is left out behind the new first bit exactly if nothing was left out before.
  have whole : (round || sticky) = false ↔ q = m := by
    rw [Bool.or_eq_false_iff, ← Bool.not_eq_true, hr, hs]
    constructor
    · rintro ⟨below, rfl | rfl⟩
      · rfl
      · exact absurd le_rfl below
    · rintro rfl
      exact ⟨by linarith, .inl rfl⟩
  constructor
  · change ((m / 2 : ℕ) : ℚ) ≤ q / 2
    have := Nat.cast_nonneg (α := ℚ) (m % 2)
    linarith
  · change q / 2 < ((m / 2 : ℕ) : ℚ) + 1
    have : ((m % 2 : ℕ) : ℚ) ≤ 1 := by exact_mod_cast Nat.le_of_lt_succ (Nat.mod_lt m two_pos)
    linarith
  · change (m % 2 != 0) = true ↔ ((m / 2 : ℕ) : ℚ) + 1 / 2 ≤ q / 2
    rcases Nat.mod_two_eq_zero_or_one m with even | odd
    · rw [even, Nat.cast_zero] at parts
      rw [even]
      exact iff_of_false nofun (by linarith)
    · rw [odd, Nat.cast_one] at parts
      rw [odd]
      exact iff_of_true rfl (by linarith)
  · change (round || sticky) = false ↔ q / 2 = ((m / 2 : ℕ) : ℚ) ∨ q / 2 = ((m / 2 : ℕ) : ℚ) + 1 / 2
    rw [whole]
    rcases Nat.mod_two_eq_zero_or_one m with even | odd
    · rw [even, Nat.cast_zero] at parts
      constructor
      · exact fun same => .inl (by linarith)
      · rintro (same | same)
        · linarith
        · linarith
    · rw [odd, Nat.cast_one] at parts
      constructor
      · exact fun same => .inr (by linarith)
      · rintro (same | same)
        · linarith
        · linarith

theorem HalfCut.shiftRight {em : ExtendedMantissa} {q : ℚ} (h : HalfCut em q) (k : ℕ) :
    HalfCut (em >>> k) (q / 2 ^ k) := by
  induction k with
  | zero =>
    rw [pow_zero, div_one]
    exact h
  | succ k ih =>
    rw [pow_succ, ← div_div]
    exact ih.shiftRightOne

/-- The rounded mantissa is above a whole number exactly if the number is above the middle behind
it, or at this middle behind an odd number. -/
theorem HalfCut.lt_roundedMantissa_iff {em : ExtendedMantissa} {q : ℚ} (h : HalfCut em q) (g : ℕ) :
    g < em.roundedMantissa ↔ (g : ℚ) + 1 / 2 < q ∨ q = g + 1 / 2 ∧ g % 2 = 1 := by
  obtain ⟨m, round, sticky⟩ := em
  obtain ⟨le, lt, hr, hs⟩ := h
  dsimp only at le lt hr hs
  rcases lt_trichotomy g m with below | rfl | above
  · have : (g : ℚ) + 1 ≤ m := by exact_mod_cast below
    refine iff_of_true ?_ (.inl (by linarith))
    cases round <;> cases sticky <;>
      simp [ExtendedMantissa.roundedMantissa, ExtendedMantissa.accuracy,
        Accuracy.roundToNearestEven] <;> omega
  · have raised : g < (⟨g, round, sticky⟩ : ExtendedMantissa).roundedMantissa ↔
        round = true ∧ (sticky = true ∨ g % 2 = 1) := by
      cases round <;> cases sticky <;>
        simp [ExtendedMantissa.roundedMantissa, ExtendedMantissa.accuracy,
          Accuracy.roundToNearestEven]
      omega
    rw [raised, hr, ← Bool.not_eq_false, hs, not_or]
    constructor
    · rintro ⟨reaches, ⟨-, beyond⟩ | odd⟩
      · exact .inl (lt_of_le_of_ne' reaches beyond)
      · exact reaches.lt_or_eq.imp_right fun middle => ⟨middle.symm, odd⟩
    · rintro (high | ⟨rfl, odd⟩)
      · exact ⟨high.le, .inl ⟨by linarith, high.ne'⟩⟩
      · exact ⟨le_rfl, .inr odd⟩
  · have : (m : ℚ) + 1 ≤ g := by exact_mod_cast above
    refine iff_of_false ?_ ?_
    · cases round <;> cases sticky <;>
        simp [ExtendedMantissa.roundedMantissa, ExtendedMantissa.accuracy,
          Accuracy.roundToNearestEven] <;> omega
    · rintro (high | ⟨high, -⟩)
      · linarith
      · linarith

/-! ## Rounded results -/

/-- A result is an exact one, rounded: a mantissa with the bits behind it was rounded, or the exact
result is that of a double. -/
inductive RoundedFrom (v : ℚ) : UnpackedFloat → Prop where
  /-- The exact result is rounded. -/
  | rounded {s : Sign} {m : ℕ} {e : ℤ} {a : Accuracy} {q : ℚ}
    (h : HalfCut (.ofMantissaAndAccuracy m a) q)
    (room : e ≤ Format.binary64.targetExponent (totalExponent m e))
    (same : v = signed s (q * 2 ^ e)) : RoundedFrom v (roundWithAccuracy .binary64 s m e a)
  /-- There is nothing to round. -/
  | exact {u : UnpackedFloat} (canonical : Canonical u) (same : v = value u) : RoundedFrom v u

/-- A number in units of a last bit, up to which there are `53` bits unless it is the least one, and
the mantissa that is rounded there. -/
structure Kept (em : ExtendedMantissa) (p : ℚ) (t : ℤ) : Prop where
  /-- The bits behind the mantissa show where the number is. -/
  cut : HalfCut em p
  /-- No bit is below the least one. -/
  least : -1074 ≤ t
  /-- There are no more bits. -/
  most : p ≤ 2 ^ 53
  /-- There are no fewer bits. -/
  full : 2 ^ 52 ≤ p ∨ t = -1074

variable {v p : ℚ} {u : UnpackedFloat} {em : ExtendedMantissa} {t : ℤ}

/-- A rounded result is canonical and on the right side of every double. -/
theorem RoundedFrom.rounds (h : RoundedFrom v u) : Canonical u ∧ Rounds v (value u) := by
  cases h with
  | rounded h room same =>
    rw [same]
    exact rounds_roundWithAccuracy h.cutOff room
  | exact canonical same => exact ⟨canonical, rounds_of_eq same⟩

/-- A rounded result is a mantissa rounded at the last bit that is kept. -/
theorem RoundedFrom.exists_kept (h : RoundedFrom v u) :
    ∃ em p t, Kept em p t ∧ |v| = p * 2 ^ t ∧ |value u| = em.roundedMantissa * 2 ^ t := by
  cases h with
  | @rounded s m e a q h room same =>
    obtain ⟨k, least, size, most, full, result⟩ := Double.exists_kept h.cutOff room
    have cut := h.shiftRight k
    have kept : Kept _ (q / 2 ^ k) (e + k) := ⟨cut, least, by exact_mod_cast most,
      full.imp_left fun above => by exact_mod_cast above⟩
    refine ⟨_, _, _, kept, ?_, ?_⟩
    · have nonneg : 0 ≤ q / 2 ^ k := (Nat.cast_nonneg _).trans cut.le
      rw [same, abs_signed, size, abs_of_nonneg (mul_nonneg nonneg (two_zpow_pos _).le)]
    · rw [(result s).2, abs_signed,
        abs_of_nonneg (mul_nonneg (Nat.cast_nonneg _) (two_zpow_pos _).le)]
  | exact canonical same =>
    -- A mantissa without anything behind it is rounded to itself.
    rw [same]
    match u, canonical with
    | .zero _, _ =>
      refine ⟨_, _, -1074, ⟨halfCut_exact 0, le_rfl, by norm_num, .inr rfl⟩, ?_, ?_⟩ <;>
        simp [value, ExtendedMantissa.ofMantissaAndAccuracy, ExtendedMantissa.roundedMantissa,
          ExtendedMantissa.accuracy, Accuracy.roundToNearestEven]
    | .finite s m e pos, canonical =>
      obtain ⟨small, least, full⟩ := canonical_finite.mp canonical
      have size : |value (.finite s m e pos)| = m * 2 ^ e := by
        rw [value, abs_signed, abs_of_pos (value_pos pos)]
      refine ⟨_, m, e, ⟨halfCut_exact m, least, by exact_mod_cast small.le, ?_⟩, size, size⟩
      exact full.imp_left fun above => by exact_mod_cast above

/-! ## The two ends of the range -/

theorem Kept.roundedMantissa_le (h : Kept em p t) : em.roundedMantissa ≤ 2 ^ 53 := by
  rw [← not_lt, h.cut.lt_roundedMantissa_iff]
  have := h.most
  push_cast
  rintro (high | ⟨high, -⟩)
  · linarith
  · linarith

theorem Kept.le_roundedMantissa (h : Kept em p t) (full : 2 ^ 52 ≤ p) :
    2 ^ 52 ≤ em.roundedMantissa := by
  refine Nat.succ_le_of_lt ((h.cut.lt_roundedMantissa_iff (2 ^ 52 - 1)).mpr (.inl ?_))
  push_cast
  linarith

/-- Half the least positive double. -/
def underflow : ℚ := 2 ^ (-1075 : ℤ)

/-- The middle between the largest double and the power of two behind it. -/
def overflow : ℚ := 2 ^ (1024 : ℤ) - 2 ^ (970 : ℤ)

theorem underflow_pos : 0 < underflow := two_zpow_pos _

theorem least_eq : (2 : ℚ) ^ (-1074 : ℤ) = 2 * underflow := by
  have half := two_zpow_add_natCast (-1075) 1
  rwa [pow_one] at half

theorem overflow_eq : overflow = (2 ^ 53 - 1 / 2) * 2 ^ (971 : ℤ) := by
  have last : (2 : ℚ) ^ (971 : ℤ) = 2 ^ 1 * 2 ^ (970 : ℤ) := two_zpow_add_natCast 970 1
  have bound : (2 : ℚ) ^ (1024 : ℤ) = 2 ^ 53 * 2 ^ (971 : ℤ) := two_zpow_add_natCast 971 53
  rw [overflow, sub_mul, bound, last]
  ring

/-- A rounded result is zero exactly if the exact one is at most half the least positive double. -/
theorem Kept.vanishes_iff (h : Kept em p t) :
    (em.roundedMantissa * 2 ^ t : ℚ) = 0 ↔ p * 2 ^ t ≤ underflow := by
  rw [mul_eq_zero_iff_right (two_zpow_pos t).ne', Nat.cast_eq_zero]
  rcases h.full with full | rfl
  · have above : 0 < em.roundedMantissa := (Nat.two_pow_pos 52).trans_le (h.le_roundedMantissa full)
    refine iff_of_false above.ne' (not_le.mpr ?_)
    calc underflow
      _ < 2 * underflow := lt_two_mul_self underflow_pos
      _ = 2 ^ (-1074 : ℤ) := least_eq.symm
      _ ≤ 2 ^ t := zpow_le_zpow_right₀ one_le_two h.least
      _ ≤ p * 2 ^ t := le_mul_of_one_le_left (two_zpow_pos t).le (by linarith)
  · have positive := h.cut.lt_roundedMantissa_iff 0
    have half : p * (2 * underflow) ≤ underflow ↔ p ≤ 1 / 2 := by
      rw [← mul_assoc, mul_le_iff_le_one_left underflow_pos, le_div_iff₀ two_pos]
    rw [least_eq, half, ← not_iff_not, not_le, ← ne_eq, ← Nat.pos_iff_ne_zero, positive]
    norm_num

/-- A rounded result is below the power of two behind the largest double exactly if the exact one
is not even halfway there. -/
theorem Kept.bounded_iff (h : Kept em p t) :
    (em.roundedMantissa * 2 ^ t : ℚ) < 2 ^ (1024 : ℤ) ↔ p * 2 ^ t < overflow := by
  have bound : (2 : ℚ) ^ (1024 : ℤ) = 2 ^ 53 * 2 ^ (971 : ℤ) := two_zpow_add_natCast 971 53
  have unit := two_zpow_pos 971
  have most := h.most
  have rounded : (em.roundedMantissa : ℚ) ≤ 2 ^ 53 := by exact_mod_cast h.roundedMantissa_le
  have nonneg : 0 ≤ p := (Nat.cast_nonneg _).trans h.cut.le
  rw [overflow_eq, bound]
  rcases lt_trichotomy t 971 with below | rfl | above
  · have small : (2 : ℚ) ^ t * 2 ≤ 2 ^ (971 : ℤ) := by
      rw [← zpow_add_one₀ two_ne_zero]
      exact zpow_le_zpow_right₀ one_le_two below
    have limit {x : ℚ} (most : x ≤ 2 ^ 53) : x * 2 ^ t < (2 ^ 53 - 1 / 2) * 2 ^ (971 : ℤ) := by
      calc x * 2 ^ t
        _ ≤ 2 ^ 53 * 2 ^ t := mul_le_mul_of_nonneg_right most (two_zpow_pos t).le
        _ = 2 ^ 52 * (2 ^ t * 2) := by ring
        _ ≤ 2 ^ 52 * 2 ^ (971 : ℤ) := mul_le_mul_of_nonneg_left small (by positivity)
        _ < (2 ^ 53 - 1 / 2) * 2 ^ (971 : ℤ) := mul_lt_mul_of_pos_right (by norm_num) unit
    refine iff_of_true ((limit rounded).trans ?_) (limit most)
    exact mul_lt_mul_of_pos_right (sub_lt_self _ one_half_pos) unit
  · rw [mul_lt_mul_iff_left₀ unit, mul_lt_mul_iff_left₀ unit, ← not_iff_not, not_lt, not_lt]
    have odd := h.cut.lt_roundedMantissa_iff (2 ^ 53 - 1)
    have middle : ((2 ^ 53 - 1 : ℕ) : ℚ) + 1 / 2 = 2 ^ 53 - 1 / 2 := by norm_num
    have least : (2 ^ 53 : ℚ) ≤ em.roundedMantissa ↔ 2 ^ 53 - 1 < em.roundedMantissa := by
      have whole : 2 ^ 53 ≤ em.roundedMantissa ↔ 2 ^ 53 - 1 < em.roundedMantissa := by omega
      rw [← whole]
      exact_mod_cast Iff.rfl
    rw [least, odd, middle, and_iff_left (by decide), eq_comm, ← le_iff_lt_or_eq]
  · have full : 2 ^ 52 ≤ p := h.full.resolve_right (by omega)
    have large : 2 ^ (971 : ℤ) * (2 : ℚ) ≤ 2 ^ t := by
      rw [← zpow_add_one₀ two_ne_zero]
      exact zpow_le_zpow_right₀ one_le_two above
    have limit {x : ℚ} (full : 2 ^ 52 ≤ x) : 2 ^ 53 * 2 ^ (971 : ℤ) ≤ x * 2 ^ t := by
      calc (2 ^ 53 * 2 ^ (971 : ℤ) : ℚ)
        _ = 2 ^ 52 * (2 ^ (971 : ℤ) * 2) := by ring
        _ ≤ 2 ^ 52 * 2 ^ t := mul_le_mul_of_nonneg_left large (by positivity)
        _ ≤ x * 2 ^ t := mul_le_mul_of_nonneg_right full (two_zpow_pos t).le
    refine iff_of_false (limit ?_).not_gt (((mul_lt_mul_of_pos_right ?_ unit).le.trans
      (limit full)).not_gt)
    · exact_mod_cast h.le_roundedMantissa full
    · exact sub_lt_self _ one_half_pos

theorem RoundedFrom.vanishes_iff (h : RoundedFrom v u) : value u = 0 ↔ |v| ≤ underflow := by
  obtain ⟨em, p, t, kept, exact, rounded⟩ := h.exists_kept
  rw [← abs_eq_zero, rounded, exact, kept.vanishes_iff]

theorem RoundedFrom.bounded_iff (h : RoundedFrom v u) :
    |value u| < 2 ^ (1024 : ℤ) ↔ |v| < overflow := by
  obtain ⟨em, p, t, kept, exact, rounded⟩ := h.exists_kept
  rw [rounded, exact, kept.bounded_iff]

end EquationSolver.Double
