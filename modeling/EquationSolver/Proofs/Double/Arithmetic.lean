import EquationSolver.Proofs.Double.Nearest

/-!
# Arithmetic of doubles

Sums, differences, products and quotients of finite doubles are the exact results, rounded. A bound
on the exact result that is a finite double is therefore one on the double that is found; the result
may be infinite, and then it is above or below every such bound. It is infinite from the middle
behind the largest double on, and zero up to half the least positive one.

## Main definitions

* `IsRounding`: a double stays on the same side of every finite double as a number
* `IsNearest`: it also vanishes and stays finite as rounding to the nearest double asks

## Main results

* `add_isNearest`, `sub_isNearest`, `mul_isNearest`, `div_isNearest`: the operations round the exact
  result
-/

namespace EquationSolver.Double

open Float.Model
open Float.Model.UnpackedFloat (Sign decreaseExponent)

theorem number_zero : number 0 = 0 := rfl

/-- The double stays on the same side of every finite double as the number. -/
def IsRounding (v : ℚ) (r : Float) : Prop :=
  ∀ b : Float, b.isFinite = true → (v ≤ number b → r ≤ b) ∧ (number b ≤ v → b ≤ r)

theorem isRounding_pack {u : UnpackedFloat} {v : ℚ} (h : Canonical u ∧ Rounds v (value u)) :
    IsRounding v ⟨Float.Model.pack u⟩ := by
  intro b hb
  have sides := h.2 (number b) (representable_value (canonical_unpack hb))
  exact ⟨fun above => pack_le h.1 hb (sides.1 above), fun below => le_pack h.1 hb (sides.2 below)⟩

/-- What is rounded stays between finite doubles. -/
theorem IsRounding.between {v : ℚ} {r a b : Float} (h : IsRounding v r) (ha : a.isFinite = true)
    (hb : b.isFinite = true) (left : number a ≤ v) (right : v ≤ number b) :
    r.isFinite = true ∧ number a ≤ number r ∧ number r ≤ number b := by
  have above := (h a ha).2 left
  have below := (h b hb).1 right
  have finite := finite_of_le_of_le ha hb above below
  exact ⟨finite, (le_iff ha finite).mp above, (le_iff finite hb).mp below⟩

/-- The double is the number rounded to the nearest one: it stays on the same side of every finite
double, and at both ends of the range it is what the number is nearer to. -/
structure IsNearest (v : ℚ) (r : Float) : Prop where
  /-- It stays on the same side of every finite double. -/
  isRounding : IsRounding v r
  /-- It is zero up to half the least positive double. -/
  beq_zero_iff : (r == 0) = true ↔ |v| ≤ underflow
  /-- It is finite up to the middle behind the largest double. -/
  isFinite_iff : r.isFinite = true ↔ |v| < overflow

theorem isNearest_pack {u : UnpackedFloat} {v : ℚ} (h : RoundedFrom v u) :
    IsNearest v ⟨Float.Model.pack u⟩ := by
  have rounds := h.rounds
  have sides := isRounding_pack rounds
  rcases unpack_pack_eq_or rounds.1 with kept | ⟨s, large, size⟩
  · have finite : (⟨Float.Model.pack u⟩ : Float).isFinite = true := by
      change (Float.Model.pack u).unpack.isFinite = true
      rw [kept]
      exact rounds.1.isFinite
    have same : number ⟨Float.Model.pack u⟩ = value u := congrArg value kept
    refine ⟨sides, ?_, iff_of_true finite ?_⟩
    · rw [beq_iff finite (by decide), same, ← h.vanishes_iff]
      rfl
    · rw [← h.bounded_iff, ← same]
      exact abs_number_lt _
  · have outside : 2 ^ (1024 : ℤ) ≤ |value u| :=
      size.trans ((le_abs_self _).trans_eq (abs_signed s _))
    have infinite : ¬ (⟨Float.Model.pack u⟩ : Float).isFinite = true := by
      change ¬ (Float.Model.pack u).unpack.isFinite = true
      rw [large]
      exact nofun
    refine ⟨sides, iff_of_false ?_ ?_, iff_of_false infinite ?_⟩
    · change ¬ (Float.Model.pack u).unpack.beq _ = true
      rw [large]
      cases s <;> exact nofun
    · rw [← h.vanishes_iff, ← abs_eq_zero]
      exact ((two_zpow_pos _).trans_le outside).ne'
    · rw [← h.bounded_iff]
      exact outside.not_gt

/-! ## Sums -/

/-- A smaller exponent asks for a larger mantissa. -/
theorem shiftLeft_mul_zpow (m k : ℕ) (e : ℤ) : ((m <<< k : ℕ) * 2 ^ (e - k) : ℚ) = m * 2 ^ e := by
  rw [Nat.shiftLeft_eq, zpow_sub₀ two_ne_zero, zpow_natCast]
  push_cast
  field_simp

theorem decreaseExponent_mul_zpow {m : ℕ} {e t : ℤ} (h : t ≤ e) :
    ((decreaseExponent m e t).1 * 2 ^ t : ℚ) = m * 2 ^ e := by
  rw [← shiftLeft_mul_zpow m (e - t).toNat e, Int.toNat_of_nonneg (sub_nonneg.mpr h),
    sub_sub_cancel]
  rfl

theorem log2_shiftLeft {m : ℕ} (pos : 0 < m) (k : ℕ) : (m <<< k).log2 = m.log2 + k := by
  have nonzero : m <<< k ≠ 0 := by
    rw [Nat.shiftLeft_eq]
    positivity
  rw [Nat.log2_eq_iff nonzero, Nat.shiftLeft_eq]
  constructor
  · rw [pow_add]
    exact Nat.mul_le_mul_right _ (Nat.log2_self_le pos.ne')
  · rw [add_right_comm, pow_add]
    exact Nat.mul_lt_mul_of_pos_right Nat.lt_log2_self (by positivity)

theorem roundedFrom_round {s : Sign} {m : ℕ} {e : ℤ} (pos : 0 < m) :
    RoundedFrom (signed s (m * 2 ^ e)) (UnpackedFloat.round .binary64 s m e) := by
  obtain ⟨k, shift⟩ :
      ∃ k : ℕ, (e - Format.binary64.targetExponent (totalExponent m e)).toNat = k := ⟨_, rfl⟩
  rw [targetExponent_eq] at shift
  have unfolded : UnpackedFloat.round .binary64 s m e =
      UnpackedFloat.roundWithAccuracy .binary64 s (m <<< k) (e - k) .exact := by
    rw [← shift, ← targetExponent_eq]
    rfl
  rw [unfolded, ← shiftLeft_mul_zpow m k e]
  refine .rounded (halfCut_exact _) ?_ rfl
  rw [targetExponent_eq, log2_shiftLeft pos]
  omega

/-- A whole number times a power of two is rounded. -/
theorem roundedFrom_normalize (m e : ℤ) (zero : Sign) :
    RoundedFrom (m * 2 ^ e) (UnpackedFloat.normalize .binary64 m e zero) := by
  unfold UnpackedFloat.normalize
  rcases lt_trichotomy m 0 with neg | rfl | pos
  · rw [compare_lt_iff_lt.mpr neg]
    have size : (m * 2 ^ e : ℚ) = signed .negative ((-m).toNat * 2 ^ e) := by
      rw [signed, ← neg_mul]
      congr 1
      have : ((-m).toNat : ℤ) = -m := Int.toNat_of_nonneg (by omega)
      exact_mod_cast (neg_eq_iff_eq_neg.mpr this).symm
    rw [size]
    exact roundedFrom_round (by omega)
  · rw [compare_eq_iff_eq.mpr rfl, Int.cast_zero, zero_mul]
    exact .exact trivial rfl
  · rw [compare_gt_iff_gt.mpr pos]
    have size : (m * 2 ^ e : ℚ) = signed .positive (m.toNat * 2 ^ e) := by
      rw [signed]
      congr 1
      exact_mod_cast (Int.toNat_of_nonneg pos.le).symm
    rw [size]
    exact roundedFrom_round (by omega)

theorem apply_mul_zpow (s : Sign) (m : ℕ) (e : ℤ) :
    ((s.apply m : ℤ) * 2 ^ e : ℚ) = signed s (m * 2 ^ e) := by
  cases s with
  | positive => rfl
  | negative => simp [Sign.apply, signed]

theorem roundedFrom_add {u w : UnpackedFloat} (hu : Canonical u) (hw : Canonical w) :
    RoundedFrom (value u + value w) (UnpackedFloat.add .binary64 u w) := by
  match u, w, hu, hw with
  | .zero s, .zero t, _, _ => cases s <;> cases t <;> exact .exact trivial (add_zero 0)
  | .zero _, .finite .., _, hw => exact .exact hw (zero_add _)
  | .finite .., .zero _, hu, _ => exact .exact hu (add_zero _)
  | .finite s₁ m₁ e₁ _, .finite s₂ m₂ e₂ _, _, _ =>
    -- Both mantissas are brought to the smaller exponent, and added there.
    let e := min e₁ e₂
    let n₁ := (decreaseExponent m₁ e₁ e).1
    let n₂ := (decreaseExponent m₂ e₂ e).1
    have size₁ : (n₁ * 2 ^ e : ℚ) = m₁ * 2 ^ e₁ := decreaseExponent_mul_zpow (min_le_left e₁ e₂)
    have size₂ : (n₂ * 2 ^ e : ℚ) = m₂ * 2 ^ e₂ := decreaseExponent_mul_zpow (min_le_right e₁ e₂)
    have sum : signed s₁ (m₁ * 2 ^ e₁) + signed s₂ (m₂ * 2 ^ e₂) =
        ((s₁.apply n₁ + s₂.apply n₂ : ℤ) * 2 ^ e : ℚ) := by
      rw [Int.cast_add, add_mul, apply_mul_zpow, apply_mul_zpow, size₁, size₂]
    rw [value, value, sum]
    exact roundedFrom_normalize _ e .positive

theorem add_isNearest {x y : Float} (hx : x.isFinite = true) (hy : y.isFinite = true) :
    IsNearest (number x + number y) (x + y) :=
  isNearest_pack (roundedFrom_add (canonical_unpack hx) (canonical_unpack hy))

theorem add_isRounding {x y : Float} (hx : x.isFinite = true) (hy : y.isFinite = true) :
    IsRounding (number x + number y) (x + y) := (add_isNearest hx hy).isRounding

/-! ## Differences -/

theorem signed_neg (s : Sign) (q : ℚ) : signed (-s) q = -signed s q := by
  cases s with
  | positive => rfl
  | negative => exact (neg_neg q).symm

theorem canonical_neg {u : UnpackedFloat} (h : Canonical u) :
    Canonical u.neg ∧ value u.neg = -value u := by
  match u, h with
  | .zero _, _ => exact ⟨trivial, neg_zero.symm⟩
  | .finite s m e _, h => exact ⟨h, signed_neg s _⟩

/-- A difference is the sum with the double of the other sign. -/
theorem sub_eq_add_neg_unpacked (u w : UnpackedFloat) :
    UnpackedFloat.sub .binary64 u w = UnpackedFloat.add .binary64 u w.neg := by
  cases u <;> cases w <;> try rfl
  rename_i s₁ m₁ e₁ pos₁ s₂ m₂ e₂ pos₂
  have flipped (n : ℕ) : (-s₂).apply n = -s₂.apply n := by
    cases s₂ with
    | positive => rfl
    | negative => exact (neg_neg (n : ℤ)).symm
  change UnpackedFloat.normalize .binary64 (_ - _) _ _ =
    UnpackedFloat.normalize .binary64 (_ + (-s₂).apply _) _ _
  rw [flipped, sub_eq_add_neg]

theorem sub_isNearest {x y : Float} (hx : x.isFinite = true) (hy : y.isFinite = true) :
    IsNearest (number x - number y) (x - y) := by
  obtain ⟨canonical, size⟩ := canonical_neg (canonical_unpack hy)
  have sum := roundedFrom_add (canonical_unpack hx) canonical
  rw [size, ← sub_eq_add_neg, ← sub_eq_add_neg_unpacked] at sum
  exact isNearest_pack sum

/-! ## Products -/

theorem signed_mul_signed (s t : Sign) (p q : ℚ) :
    signed s p * signed t q = signed (s * t) (p * q) := by
  cases s <;> cases t
  · exact neg_mul_neg p q
  · exact neg_mul p q
  · exact mul_neg p q
  · rfl

theorem roundedFrom_mul {u w : UnpackedFloat} (hu : Canonical u) (hw : Canonical w) :
    RoundedFrom (value u * value w) (UnpackedFloat.mul .binary64 u w) := by
  match u, w, hu, hw with
  | .zero s, .zero t, _, _ => exact .exact trivial (mul_zero 0)
  | .zero _, .finite .., _, hw => exact .exact trivial (zero_mul _)
  | .finite .., .zero _, hu, _ => exact .exact trivial (mul_zero _)
  | .finite s₁ m₁ e₁ pos₁, .finite s₂ m₂ e₂ pos₂, hu, hw =>
    obtain ⟨-, least₁, full₁⟩ := canonical_finite.mp hu
    obtain ⟨-, least₂, full₂⟩ := canonical_finite.mp hw
    have size : signed s₁ (m₁ * 2 ^ e₁) * signed s₂ (m₂ * 2 ^ e₂) =
        signed (s₁ * s₂) ((m₁ * m₂ : ℕ) * 2 ^ (e₁ + e₂)) := by
      rw [signed_mul_signed, zpow_add₀ two_ne_zero, mul_mul_mul_comm, Nat.cast_mul]
    rw [value, value, size]
    refine .rounded (halfCut_exact _) ?_ rfl
    rw [targetExponent_eq]
    -- The product has bits enough unless both numbers have few, and then its exponent is small.
    have bits (full : 2 ^ 52 ≤ m₁ * m₂) : 52 ≤ (m₁ * m₂).log2 :=
      (Nat.le_log2 (Nat.mul_pos pos₁ pos₂).ne').mpr full
    rcases full₁ with full | few₁
    · have := bits (full.trans (Nat.le_mul_of_pos_right m₁ pos₂))
      omega
    rcases full₂ with full | few₂
    · have := bits (full.trans (Nat.le_mul_of_pos_left m₂ pos₁))
      omega
    · omega

theorem mul_isNearest {x y : Float} (hx : x.isFinite = true) (hy : y.isFinite = true) :
    IsNearest (number x * number y) (x * y) :=
  isNearest_pack (roundedFrom_mul (canonical_unpack hx) (canonical_unpack hy))

theorem mul_isRounding {x y : Float} (hx : x.isFinite = true) (hy : y.isFinite = true) :
    IsRounding (number x * number y) (x * y) := (mul_isNearest hx hy).isRounding

/-! ## Quotients -/

theorem signed_div_signed (s t : Sign) (p q : ℚ) :
    signed s p / signed t q = signed (s / t) (p / q) := by
  cases s <;> cases t
  · exact neg_div_neg_eq p q
  · exact neg_div q p
  · exact div_neg p
  · rfl

/-- The remainder of a division tells where the quotient is between two whole numbers. -/
theorem halfCut_div (p : ℕ) {d : ℕ} (pos : 0 < d) :
    HalfCut (.ofMantissaAndAccuracy (p / d) (UnpackedFloat.accuracyOfFraction (p % d) d))
      (p / d) := by
  have unit : (0 : ℚ) < d := mod_cast pos
  have parts : (d * (p / d : ℕ) + (p % d : ℕ) : ℚ) = p := mod_cast Nat.div_add_mod p d
  have rest : ((p % d : ℕ) : ℚ) < d := mod_cast Nat.mod_lt p pos
  have whole : (p / d : ℚ) = (p / d : ℕ) ↔ ((p % d : ℕ) : ℚ) = 0 := by
    rw [div_eq_iff unit.ne']
    constructor <;> intro h <;> linarith
  have reaches : ((p / d : ℕ) + 1 / 2 : ℚ) ≤ p / d ↔ (d : ℚ) ≤ 2 * (p % d : ℕ) := by
    rw [le_div_iff₀ unit]
    constructor <;> intro h <;> linarith
  have middle : (p / d : ℚ) = (p / d : ℕ) + 1 / 2 ↔ (2 * (p % d : ℕ) : ℚ) = d := by
    rw [div_eq_iff unit.ne']
    constructor <;> intro h <;> linarith
  have below : ((p / d : ℕ) : ℚ) ≤ p / d := by
    have := Nat.cast_nonneg (α := ℚ) (p % d)
    rw [le_div_iff₀ unit]
    linarith
  have above : (p / d : ℚ) < (p / d : ℕ) + 1 := by
    rw [div_lt_iff₀ unit]
    linarith
  rw [UnpackedFloat.accuracyOfFraction]
  by_cases none : p % d = 0
  · rw [if_pos none, whole.mpr (mod_cast none)]
    exact halfCut_exact _
  have some : ((p % d : ℕ) : ℚ) ≠ 0 := mod_cast none
  rw [if_neg none]
  rcases lt_trichotomy (2 * (p % d)) d with lt | eq | gt
  · rw [compare_lt_iff_lt.mpr lt]
    have lt : (2 * (p % d : ℕ) : ℚ) < d := mod_cast lt
    exact ⟨below, above, iff_of_false nofun (mt reaches.mp lt.not_ge),
      iff_of_false nofun (not_or.mpr ⟨mt whole.mp some, mt middle.mp lt.ne⟩)⟩
  · rw [compare_eq_iff_eq.mpr eq]
    have eq : (2 * (p % d : ℕ) : ℚ) = d := mod_cast eq
    exact ⟨below, above, iff_of_true rfl (reaches.mpr eq.ge),
      iff_of_true rfl (.inr (middle.mpr eq))⟩
  · rw [compare_gt_iff_gt.mpr gt]
    have gt : (d : ℚ) < 2 * (p % d : ℕ) := mod_cast gt
    exact ⟨below, above, iff_of_true rfl (reaches.mpr gt.le),
      iff_of_false nofun (not_or.mpr ⟨mt whole.mp some, mt middle.mp gt.ne'⟩)⟩

/-- The dividend is shifted until the quotient has bits enough. -/
theorem le_log2_div {m₁ m₂ k : ℕ} (pos₁ : 0 < m₁) (pos₂ : 0 < m₂)
    (h : 53 + m₂.log2 ≤ m₁.log2 + k) : 52 ≤ ((m₁ <<< k) / m₂).log2 := by
  have enough : 2 ^ 52 ≤ (m₁ <<< k) / m₂ := by
    rw [Nat.le_div_iff_mul_le pos₂]
    calc 2 ^ 52 * m₂
      _ ≤ 2 ^ 52 * 2 ^ (m₂.log2 + 1) := Nat.mul_le_mul_left _ Nat.lt_log2_self.le
      _ = 2 ^ (53 + m₂.log2) := by rw [← pow_add]; congr 1; omega
      _ ≤ 2 ^ (m₁ <<< k).log2 := by
        rw [log2_shiftLeft pos₁]
        exact Nat.pow_le_pow_right two_pos h
      _ ≤ m₁ <<< k := Nat.log2_self_le (by rw [Nat.shiftLeft_eq]; positivity)
  exact (Nat.le_log2 (by omega)).mpr enough

theorem roundedFrom_div_finite {s₁ s₂ : Sign} {m₁ m₂ : ℕ} {e₁ e₂ : ℤ} (pos₁ : 0 < m₁)
    (pos₂ : 0 < m₂) :
    RoundedFrom (signed s₁ (m₁ * 2 ^ e₁) / signed s₂ (m₂ * 2 ^ e₂))
      (UnpackedFloat.div .binary64 (.finite s₁ m₁ e₁ pos₁) (.finite s₂ m₂ e₂ pos₂)) := by
  obtain ⟨t, target⟩ : ∃ t, min (e₁ - e₂) (Format.binary64.targetExponent
    (totalExponent m₁ e₁ - totalExponent m₂ e₂)) = t := ⟨_, rfl⟩
  obtain ⟨k, shift⟩ : ∃ k : ℕ, e₁ - e₂ = t + k :=
    Int.exists_add_of_le (target ▸ min_le_left _ _)
  have amount : (e₁ - e₂ - t).toNat = k := by omega
  have unfolded : UnpackedFloat.div .binary64 (.finite s₁ m₁ e₁ pos₁) (.finite s₂ m₂ e₂ pos₂) =
      UnpackedFloat.roundWithAccuracy .binary64 (s₁ / s₂) ((m₁ <<< k) / m₂) t
        (UnpackedFloat.accuracyOfFraction ((m₁ <<< k) % m₂) m₂) := by
    rw [← amount, ← target]
    rfl
  have size : signed s₁ (m₁ * 2 ^ e₁) / signed s₂ (m₂ * 2 ^ e₂) =
      signed (s₁ / s₂) ((m₁ <<< k : ℕ) / m₂ * 2 ^ t) := by
    have exponent : e₁ = (t + k) + e₂ := by omega
    rw [signed_div_signed, ← shiftLeft_mul_zpow m₁ k e₁, exponent]
    congr 1
    have := two_zpow_pos e₂
    rw [show t + k + e₂ - k = t + e₂ by omega, zpow_add₀ two_ne_zero]
    field_simp
  rw [unfolded, size]
  refine .rounded (halfCut_div _ pos₂) ?_ rfl
  rw [targetExponent_eq]
  rw [targetExponent_binary64, totalExponent, totalExponent] at target
  by_cases least : t ≤ -1074
  · omega
  · have := le_log2_div (k := k) pos₁ pos₂ (by omega)
    omega

theorem roundedFrom_div {u w : UnpackedFloat} (hu : Canonical u) (hw : Canonical w)
    (nonzero : value w ≠ 0) :
    RoundedFrom (value u / value w) (UnpackedFloat.div .binary64 u w) := by
  cases w with
  | infinity | notANumber => exact hw.elim
  | zero => exact absurd rfl nonzero
  | finite s₂ m₂ e₂ pos₂ =>
    cases u with
    | infinity | notANumber => exact hu.elim
    | zero => exact .exact trivial (zero_div _)
    | finite s₁ m₁ e₁ pos₁ => exact roundedFrom_div_finite pos₁ pos₂

theorem div_isNearest {x y : Float} (hx : x.isFinite = true) (hy : y.isFinite = true)
    (nonzero : number y ≠ 0) : IsNearest (number x / number y) (x / y) :=
  isNearest_pack (roundedFrom_div (canonical_unpack hx) (canonical_unpack hy) nonzero)

theorem div_isRounding {x y : Float} (hx : x.isFinite = true) (hy : y.isFinite = true)
    (nonzero : number y ≠ 0) : IsRounding (number x / number y) (x / y) :=
  (div_isNearest hx hy nonzero).isRounding

end EquationSolver.Double
