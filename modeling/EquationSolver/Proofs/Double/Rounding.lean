import EquationSolver.Proofs.Double.Value

/-!
# Rounding

The exact result of an operation on doubles is cut off at the last bit that a double has room for,
and what is left out decides whether that bit is raised. Whichever way it goes, the result stays on
the same side of every number that a double can be: a bound on the exact result that is itself a
double is one on the rounded result.

## Main definitions

* `Rounds`: a number stays on the same side of every double as another
* `RoundsTo`: the same for whole numbers
* `CutOff`: a mantissa is a number cut off, and the bits behind it show whether anything was left
  out

## Main results

* `CutOff.shiftRight`, `CutOff.roundsTo`: cutting off more bits, and rounding to a whole number
* `RoundsTo.rounds`: with enough bits this is rounding to doubles
* `kept_bits`, `exists_kept`: how many bits are kept
* `rounds_roundWithAccuracy`: the rounded result is canonical and on the right side
-/

namespace EquationSolver.Double

open Float.Model
open Float.Model.UnpackedFloat (Sign Accuracy ExtendedMantissa roundWithAccuracy
  shiftToTargetExponent)

/-- The numbers that doubles of any size can be. -/
def Representable (b : ℚ) : Prop := ∃ m e : ℤ, |m| < 2 ^ 53 ∧ -1074 ≤ e ∧ b = m * 2 ^ e

/-- The second number stays on the same side of every double as the first. -/
def Rounds (v w : ℚ) : Prop := ∀ b, Representable b → (v ≤ b → w ≤ b) ∧ (b ≤ v → b ≤ w)

/-- The second number stays on the same side of every whole number as the first. -/
def RoundsTo (q : ℚ) (r : ℕ) : Prop := ∀ g : ℤ, (q ≤ g → r ≤ g) ∧ (g ≤ q → g ≤ r)

theorem rounds_of_eq {v w : ℚ} (h : v = w) : Rounds v w := fun _ _ => ⟨h ▸ id, h ▸ id⟩

theorem Representable.neg {b : ℚ} (h : Representable b) : Representable (-b) := by
  obtain ⟨m, e, small, least, rfl⟩ := h
  refine ⟨-m, e, by rwa [abs_neg], least, ?_⟩
  rw [Int.cast_neg, neg_mul]

theorem Rounds.signed {v w : ℚ} (h : Rounds v w) (s : Sign) :
    Rounds (signed s v) (signed s w) := by
  cases s with
  | positive => exact h
  | negative =>
    intro b hb
    have mirrored := h (-b) hb.neg
    constructor
    · intro below
      exact neg_le.mpr (mirrored.2 (neg_le.mp below))
    · intro above
      exact le_neg.mpr (mirrored.1 (le_neg.mp above))

theorem representable_value {u : UnpackedFloat} (hu : Canonical u) : Representable (value u) := by
  match u, hu with
  | .zero _, _ => exact ⟨0, 0, by decide, by decide, by simp [value]⟩
  | .finite s m e _, hu =>
    obtain ⟨small, least, -⟩ := canonical_finite.mp hu
    have positive : Representable (m * 2 ^ e) := ⟨m, e, by rw [Nat.abs_cast]; omega, least, by simp⟩
    cases s with
    | positive => exact positive
    | negative => exact positive.neg

/-- A double is a whole number of the last bit of a larger number, or it is smaller than that number
cut off at its first bit. -/
theorem RoundsTo.rounds {q : ℚ} {r : ℕ} {t : ℤ} (h : RoundsTo q r)
    (full : 2 ^ 52 ≤ q ∨ t = -1074) : Rounds (q * 2 ^ t) (r * 2 ^ t) := by
  rintro b ⟨m, e, small, least, rfl⟩
  have unit := two_zpow_pos t
  rcases le_or_gt t e with fine | coarse
  · -- The double is a whole number of last bits.
    obtain ⟨k, rfl⟩ := Int.exists_add_of_le fine
    have multiple : (m * 2 ^ (t + k) : ℚ) = (m * 2 ^ k : ℤ) * 2 ^ t := by
      rw [two_zpow_add_natCast, ← mul_assoc]
      push_cast
      rfl
    rw [multiple, mul_le_mul_iff_left₀ unit, mul_le_mul_iff_left₀ unit, mul_le_mul_iff_left₀ unit,
      mul_le_mul_iff_left₀ unit]
    constructor
    · intro below
      exact_mod_cast (h _).1 below
    · intro above
      exact_mod_cast (h _).2 above
  · -- The double is below the first bit of the result, whichever way that is rounded.
    have above : (2 ^ 52 : ℤ) ≤ q := by exact_mod_cast full.resolve_right (by omega)
    have raised : (2 ^ 52 : ℤ) ≤ r := (h _).2 above
    have size : (m * 2 ^ e : ℚ) < (2 ^ 52 : ℤ) * 2 ^ t := by
      calc (m * 2 ^ e : ℚ)
        _ < 2 ^ 53 * 2 ^ e := mul_lt_mul_of_pos_right
            (by exact_mod_cast (abs_lt.mp small).2) (two_zpow_pos e)
        _ = 2 ^ 52 * 2 ^ (e + 1) := by rw [zpow_add_one₀ two_ne_zero]; ring
        _ ≤ 2 ^ 52 * 2 ^ t := mul_le_mul_of_nonneg_left
            (zpow_le_zpow_right₀ one_le_two coarse) (by positivity)
        _ = (2 ^ 52 : ℤ) * 2 ^ t := by push_cast; rfl
    constructor
    · intro below
      have := below.trans_lt size
      rw [mul_lt_mul_iff_left₀ unit] at this
      exact absurd this above.not_gt
    · intro _
      exact size.le.trans (mul_le_mul_of_nonneg_right (mod_cast raised) unit.le)

/-! ## Cutting off bits -/

/-- The mantissa is a number cut off, and one of the bits behind it is set if anything was left
out. -/
structure CutOff (em : ExtendedMantissa) (q : ℚ) : Prop where
  /-- The mantissa is not above the number. -/
  le : em.mantissa ≤ q
  /-- The next whole number is. -/
  lt : q < em.mantissa + 1
  /-- If nothing was left out, no bit is set. -/
  exact : q = em.mantissa → em.roundBit = false ∧ em.stickyBit = false

theorem mantissa_ofMantissaAndAccuracy (m : ℕ) (a : Accuracy) :
    (ExtendedMantissa.ofMantissaAndAccuracy m a).mantissa = m := by
  rcases a with - | (- | - | -) <;> rfl

theorem cutOff_exact (m : ℕ) : CutOff (.ofMantissaAndAccuracy m .exact) m where
  le := le_rfl
  lt := lt_add_one _
  exact _ := ⟨rfl, rfl⟩

/-- Cutting off one bit halves the number. -/
theorem CutOff.shiftRightOne {em : ExtendedMantissa} {q : ℚ} (h : CutOff em q) :
    CutOff em.shiftRightOne (q / 2) := by
  have parts : (em.mantissa : ℚ) = 2 * (em.mantissa / 2 : ℕ) + (em.mantissa % 2 : ℕ) := by
    exact_mod_cast (Nat.div_add_mod em.mantissa 2).symm
  have last : ((em.mantissa % 2 : ℕ) : ℚ) ≤ 1 := by
    exact_mod_cast Nat.le_of_lt_succ (Nat.mod_lt em.mantissa two_pos)
  have le := h.le
  have lt := h.lt
  constructor
  · change ((em.mantissa / 2 : ℕ) : ℚ) ≤ q / 2
    have := Nat.cast_nonneg (α := ℚ) (em.mantissa % 2)
    linarith
  · change q / 2 < ((em.mantissa / 2 : ℕ) : ℚ) + 1
    linarith
  · intro whole
    change q / 2 = ((em.mantissa / 2 : ℕ) : ℚ) at whole
    have even : ((em.mantissa % 2 : ℕ) : ℚ) = 0 := by
      apply le_antisymm _ (Nat.cast_nonneg _)
      linarith
    obtain ⟨round, sticky⟩ := h.exact (by linarith)
    have even : em.mantissa % 2 = 0 := by exact_mod_cast even
    simp [ExtendedMantissa.shiftRightOne, even, round, sticky]

theorem CutOff.shiftRight {em : ExtendedMantissa} {q : ℚ} (h : CutOff em q) (k : ℕ) :
    CutOff (em >>> k) (q / 2 ^ k) := by
  induction k with
  | zero =>
    rw [pow_zero, div_one]
    exact h
  | succ k ih =>
    rw [pow_succ, ← div_div]
    exact ih.shiftRightOne

/-- The last bit is raised at most by one, and not at all if nothing was left out. -/
theorem CutOff.roundsTo {em : ExtendedMantissa} {q : ℚ} (h : CutOff em q) :
    RoundsTo q em.roundedMantissa := by
  have raised : em.mantissa ≤ em.roundedMantissa ∧ em.roundedMantissa ≤ em.mantissa + 1 := by
    obtain ⟨m, round, sticky⟩ := em
    cases round <;> cases sticky <;>
      simp [ExtendedMantissa.roundedMantissa, ExtendedMantissa.accuracy,
        Accuracy.roundToNearestEven]
    omega
  have kept (whole : q = em.mantissa) : em.roundedMantissa = em.mantissa := by
    obtain ⟨m, round, sticky⟩ := em
    obtain ⟨rfl, rfl⟩ := h.exact whole
    rfl
  have le := h.le
  have lt := h.lt
  intro g
  constructor
  · intro above
    have reaches : (em.mantissa : ℤ) ≤ g := by exact_mod_cast le.trans above
    rcases reaches.lt_or_eq with further | rfl
    · omega
    · rw [kept (le_antisymm (mod_cast above) le)]
  · intro below
    have : g < em.mantissa + 1 := by exact_mod_cast below.trans_lt lt
    omega

/-! ## Rounding to doubles -/

/-- A double has room for `53` bits, as long as its exponent is not the least one. -/
theorem targetExponent_binary64 (d : ℤ) :
    Format.binary64.targetExponent d = max (d - 53) (-1074) := rfl

theorem targetExponent_eq (m : ℕ) (e : ℤ) :
    Format.binary64.targetExponent (totalExponent m e) = max (m.log2 + e - 52) (-1074) := by
  rw [targetExponent_binary64, totalExponent]
  omega

theorem shiftToTargetExponent_eq {m : ℕ} {e : ℤ} {a : Accuracy} {k : ℕ}
    (h : (max (m.log2 + e - 52) (-1074) - e).toNat = k) :
    shiftToTargetExponent .binary64 m e a =
      (ExtendedMantissa.ofMantissaAndAccuracy m a >>> k, e + k) := by
  rw [← h, ← targetExponent_eq]
  rfl

/-- A mantissa with room for all of its bits is kept. -/
theorem shiftToTargetExponent_of_lt {m : ℕ} {e : ℤ} (small : m < 2 ^ 53) (least : -1074 ≤ e) :
    shiftToTargetExponent .binary64 m e .exact = (⟨m, false, false⟩, e) := by
  have short : m.log2 ≤ 52 := by
    rcases Nat.eq_zero_or_pos m with rfl | pos
    · decide
    · exact Nat.le_of_lt_succ ((Nat.log2_lt pos.ne').mpr small)
  rw [shiftToTargetExponent_eq (k := 0) (by omega), Nat.cast_zero, add_zero]
  rfl

/-- A mantissa that was raised to one bit more is the least one of the next exponent. -/
theorem shiftToTargetExponent_raised {e : ℤ} (least : -1074 ≤ e) :
    shiftToTargetExponent .binary64 (2 ^ 53) e .exact = (⟨2 ^ 52, false, false⟩, e + 1) := by
  rw [shiftToTargetExponent_eq (k := 1) (by rw [Nat.log2_two_pow]; omega)]
  rfl

/-- What the rounded mantissa is packed from. -/
theorem canonical_roundWithAccuracy {s : Sign} {m : ℕ} {e t : ℤ} {a : Accuracy}
    {em : ExtendedMantissa} (shifted : shiftToTargetExponent .binary64 m e a = (em, t))
    (least : -1074 ≤ t) (most : em.roundedMantissa ≤ 2 ^ 53)
    (full : 2 ^ 52 ≤ em.roundedMantissa ∨ t = -1074) :
    Canonical (roundWithAccuracy .binary64 s m e a) ∧
      value (roundWithAccuracy .binary64 s m e a) = signed s (em.roundedMantissa * 2 ^ t) := by
  unfold roundWithAccuracy
  rw [shifted]
  dsimp only
  rcases most.lt_or_eq with small | raised
  · rw [shiftToTargetExponent_of_lt small least]
    dsimp only
    split
    · rename_i zero
      rw [zero, Nat.cast_zero, zero_mul]
      cases s <;> exact ⟨trivial, by norm_num [value, signed]⟩
    · exact ⟨⟨small, least, full⟩, rfl⟩
  · rw [raised, shiftToTargetExponent_raised least]
    refine ⟨⟨Nat.pow_lt_pow_right one_lt_two (by decide), by omega, .inl le_rfl⟩, ?_⟩
    change signed s ((2 ^ 52 : ℕ) * 2 ^ (t + 1)) = _
    rw [zpow_add_one₀ two_ne_zero]
    congr 1
    push_cast
    ring

/-- The bits that are kept of a mantissa are `53`, unless the exponent is the least one. -/
theorem kept_bits {m k : ℕ} {e : ℤ} {q : ℚ} (le : m ≤ q) (lt : q < m + 1)
    (target : max (m.log2 + e - 52) (-1074) = e + k) :
    q / 2 ^ k ≤ (2 ^ 53 : ℤ) ∧ ((2 ^ 52 : ℤ) ≤ q / 2 ^ k ∨ e + k = -1074) := by
  have unit : (0 : ℚ) < 2 ^ k := by positivity
  constructor
  · have bits : m + 1 ≤ 2 ^ 53 * 2 ^ k := by
      rw [← pow_add]
      exact Nat.lt_log2_self.trans_le (Nat.pow_le_pow_right two_pos (by omega))
    rw [div_le_iff₀ unit]
    exact lt.le.trans (mod_cast bits)
  · by_cases least : e + k = -1074
    · exact .inr least
    -- The exponent came from the length of the mantissa, so that this many bits are behind it.
    have length : m.log2 = 52 + k := by omega
    have bits : 2 ^ 52 * 2 ^ k ≤ m := by
      rw [← pow_add, ← length]
      refine Nat.log2_self_le ?_
      rintro rfl
      rw [Nat.log2_zero] at length
      omega
    left
    rw [le_div_iff₀ unit]
    exact le.trans' (mod_cast bits)

/-- The last bit that is kept: there are `53` bits up to it, unless the exponent is the least one,
and what is rounded there is the result. -/
theorem exists_kept {m : ℕ} {e : ℤ} {a : Accuracy} {q : ℚ}
    (h : CutOff (.ofMantissaAndAccuracy m a) q)
    (room : e ≤ Format.binary64.targetExponent (totalExponent m e)) :
    ∃ k : ℕ, -1074 ≤ e + k ∧ q * 2 ^ e = q / 2 ^ k * 2 ^ (e + k) ∧ q / 2 ^ k ≤ (2 ^ 53 : ℤ) ∧
      ((2 ^ 52 : ℤ) ≤ q / 2 ^ k ∨ e + k = -1074) ∧
      ∀ s, Canonical (roundWithAccuracy .binary64 s m e a) ∧
        value (roundWithAccuracy .binary64 s m e a) =
          signed s ((ExtendedMantissa.ofMantissaAndAccuracy m a >>> k).roundedMantissa *
            2 ^ (e + k)) := by
  rw [targetExponent_eq] at room
  obtain ⟨k, target⟩ := Int.exists_add_of_le room
  obtain ⟨most, full⟩ := kept_bits (mantissa_ofMantissaAndAccuracy m a ▸ h.le)
    (mantissa_ofMantissaAndAccuracy m a ▸ h.lt) target
  have shifted : shiftToTargetExponent .binary64 m e a =
      (ExtendedMantissa.ofMantissaAndAccuracy m a >>> k, e + k) :=
    shiftToTargetExponent_eq (by omega)
  have size : q * 2 ^ e = q / 2 ^ k * 2 ^ (e + k) := by
    rw [two_zpow_add_natCast, ← mul_assoc, div_mul_cancel₀ _ (by positivity)]
  refine ⟨k, by omega, size, most, full, fun s => ?_⟩
  -- Rounding to a whole number keeps the bounds, for they are whole numbers themselves.
  have rounded := (h.shiftRight k).roundsTo
  have most' := (rounded _).1 most
  have full' := full.imp_left fun above => (rounded _).2 above
  exact canonical_roundWithAccuracy shifted (by omega) (by exact_mod_cast most')
    (full'.imp_left fun above => by exact_mod_cast above)

/-- The exact result, given by a mantissa and what is known of the rest, is rounded. -/
theorem rounds_roundWithAccuracy {s : Sign} {m : ℕ} {e : ℤ} {a : Accuracy} {q : ℚ}
    (h : CutOff (.ofMantissaAndAccuracy m a) q)
    (room : e ≤ Format.binary64.targetExponent (totalExponent m e)) :
    Canonical (roundWithAccuracy .binary64 s m e a) ∧
      Rounds (signed s (q * 2 ^ e)) (value (roundWithAccuracy .binary64 s m e a)) := by
  obtain ⟨k, -, size, -, full, result⟩ := exists_kept h room
  obtain ⟨canonical, same⟩ := result s
  refine ⟨canonical, ?_⟩
  rw [same, size]
  have rounded := (h.shiftRight k).roundsTo
  exact (rounded.rounds (full.imp_left fun above => by exact_mod_cast above)).signed s

end EquationSolver.Double
