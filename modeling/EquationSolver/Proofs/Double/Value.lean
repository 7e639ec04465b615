import EquationSolver.Scalar
import Mathlib

/-!
# Doubles as numbers

A finite double is a whole number below `2 ^ 53` times a power of two. Those that could be written
with a smaller exponent are, down to the least one, so that doubles can be compared by their
exponents first. The order of doubles is then the order of the numbers they stand for.

## Main definitions

* `number`: the number that a double stands for
* `Canonical`: the form in which finite doubles are held

## Main results

* `canonical_unpack`, `unpack_pack`: finite doubles are held in this form
* `compare_eq_compare_value`: the order of doubles in this form
* `le_iff`, `lt_iff`, `beq_iff`: the order of finite doubles
-/

namespace EquationSolver.Double

open Float.Model
open Float.Model.UnpackedFloat (Sign packComponents unpackExponent unpackMantissa)

/-- The number of a given sign and size. -/
def signed : Sign → ℚ → ℚ
  | .positive, q => q
  | .negative, q => -q

/-- The number that an unpacked double stands for. The special values stand for none, and count as
zero. -/
def value : UnpackedFloat → ℚ
  | .finite s m e _ => signed s (m * 2 ^ e)
  | _ => 0

/-- The number that a double stands for. -/
def number (x : Float) : ℚ := value x.toModel.unpack

/-- The form in which finite doubles are held. The exponent may be too large for a double. -/
def Canonical : UnpackedFloat → Prop
  | .zero _ => True
  | .finite _ m e _ => m < 2 ^ 53 ∧ -1074 ≤ e ∧ (2 ^ 52 ≤ m ∨ e = -1074)
  | _ => False

theorem canonical_finite {s : Sign} {m : ℕ} {e : ℤ} {pos : 0 < m} :
    Canonical (.finite s m e pos) ↔ m < 2 ^ 53 ∧ -1074 ≤ e ∧ (2 ^ 52 ≤ m ∨ e = -1074) := Iff.rfl

theorem signed_signed (s : Sign) (q : ℚ) : signed s (signed s q) = q := by
  cases s with
  | positive => rfl
  | negative => exact neg_neg q

theorem abs_signed (s : Sign) (q : ℚ) : |signed s q| = |q| := by
  cases s with
  | positive => rfl
  | negative => exact abs_neg q

theorem two_zpow_pos (e : ℤ) : (0 : ℚ) < 2 ^ e := zpow_pos two_pos e

theorem two_zpow_add_natCast (e : ℤ) (k : ℕ) : (2 : ℚ) ^ (e + k) = 2 ^ k * 2 ^ e := by
  rw [zpow_add₀ two_ne_zero, zpow_natCast, mul_comm]

/-! ## The order -/

/-- The exponent decides first: the mantissa of the larger exponent is not below `2 ^ 52`. -/
theorem value_lt_of_exponent_lt {m₁ m₂ : ℕ} {e₁ e₂ : ℤ} (h₁ : m₁ < 2 ^ 53) (least : -1074 ≤ e₁)
    (h₂ : 2 ^ 52 ≤ m₂ ∨ e₂ = -1074) (lt : e₁ < e₂) : (m₁ * 2 ^ e₁ : ℚ) < m₂ * 2 ^ e₂ := by
  have full : 2 ^ 52 ≤ m₂ := h₂.resolve_right fun h => by omega
  calc (m₁ * 2 ^ e₁ : ℚ)
    _ < 2 ^ 53 * 2 ^ e₁ := mul_lt_mul_of_pos_right (mod_cast h₁) (two_zpow_pos e₁)
    _ = 2 ^ 52 * 2 ^ (e₁ + 1) := by rw [zpow_add_one₀ two_ne_zero]; ring
    _ ≤ 2 ^ 52 * 2 ^ e₂ := mul_le_mul_of_nonneg_left
        (zpow_le_zpow_right₀ one_le_two lt) (by positivity)
    _ ≤ m₂ * 2 ^ e₂ := mul_le_mul_of_nonneg_right (mod_cast full) (two_zpow_pos e₂).le

theorem compare_finite {m₁ m₂ : ℕ} {e₁ e₂ : ℤ}
    (h₁ : m₁ < 2 ^ 53 ∧ -1074 ≤ e₁ ∧ (2 ^ 52 ≤ m₁ ∨ e₁ = -1074))
    (h₂ : m₂ < 2 ^ 53 ∧ -1074 ≤ e₂ ∧ (2 ^ 52 ≤ m₂ ∨ e₂ = -1074)) :
    (compare e₁ e₂).then (compare m₁ m₂) = compare (m₁ * 2 ^ e₁ : ℚ) (m₂ * 2 ^ e₂) := by
  rcases lt_trichotomy e₁ e₂ with lt | rfl | gt
  · rw [compare_lt_iff_lt.mpr lt,
      compare_lt_iff_lt.mpr (value_lt_of_exponent_lt h₁.1 h₁.2.1 h₂.2.2 lt)]
    rfl
  · rw [compare_eq_iff_eq.mpr rfl]
    change compare m₁ m₂ = _
    rcases lt_trichotomy m₁ m₂ with lt | rfl | gt
    · rw [compare_lt_iff_lt.mpr lt, eq_comm, compare_lt_iff_lt]
      exact mul_lt_mul_of_pos_right (mod_cast lt) (two_zpow_pos e₁)
    · rw [compare_eq_iff_eq.mpr rfl, compare_eq_iff_eq.mpr rfl]
    · rw [compare_gt_iff_gt.mpr gt, eq_comm, compare_gt_iff_gt]
      exact mul_lt_mul_of_pos_right (mod_cast gt) (two_zpow_pos e₁)
  · rw [compare_gt_iff_gt.mpr gt,
      compare_gt_iff_gt.mpr (value_lt_of_exponent_lt h₂.1 h₂.2.1 h₁.2.2 gt)]
    rfl

theorem value_pos {m : ℕ} {e : ℤ} (h : 0 < m) : (0 : ℚ) < m * 2 ^ e :=
  mul_pos (mod_cast h) (two_zpow_pos e)

theorem swap_compare (p q : ℚ) : (compare p q).swap = compare (-p) (-q) := by
  rcases lt_trichotomy p q with lt | rfl | gt
  · rw [compare_lt_iff_lt.mpr lt, compare_gt_iff_gt.mpr (neg_lt_neg lt)]
    rfl
  · rw [compare_eq_iff_eq.mpr rfl, compare_eq_iff_eq.mpr rfl]
    rfl
  · rw [compare_gt_iff_gt.mpr gt, compare_lt_iff_lt.mpr (neg_lt_neg gt)]
    rfl

/-- The order of doubles in canonical form is the order of the numbers. -/
theorem compare_eq_compare_value {u w : UnpackedFloat} (hu : Canonical u) (hw : Canonical w) :
    u.compare w = some (compare (value u) (value w)) := by
  match u, w, hu, hw with
  | .zero _, .zero _, _, _ => rfl
  | .zero _, .finite .positive m e pos, _, _ =>
    exact congrArg some (compare_lt_iff_lt.mpr (value_pos pos)).symm
  | .zero _, .finite .negative m e pos, _, _ =>
    exact congrArg some (compare_gt_iff_gt.mpr (neg_neg_of_pos (value_pos pos))).symm
  | .finite .positive m e pos, .zero _, _, _ =>
    exact congrArg some (compare_gt_iff_gt.mpr (value_pos pos)).symm
  | .finite .negative m e pos, .zero _, _, _ =>
    exact congrArg some (compare_lt_iff_lt.mpr (neg_neg_of_pos (value_pos pos))).symm
  | .finite .positive m₁ e₁ pos₁, .finite .negative m₂ e₂ pos₂, _, _ =>
    exact congrArg some
      (compare_gt_iff_gt.mpr ((neg_neg_of_pos (value_pos pos₂)).trans (value_pos pos₁))).symm
  | .finite .negative m₁ e₁ pos₁, .finite .positive m₂ e₂ pos₂, _, _ =>
    exact congrArg some
      (compare_lt_iff_lt.mpr ((neg_neg_of_pos (value_pos pos₁)).trans (value_pos pos₂))).symm
  | .finite .positive m₁ e₁ pos₁, .finite .positive m₂ e₂ pos₂, hu, hw =>
    exact congrArg some (compare_finite hu hw)
  | .finite .negative m₁ e₁ pos₁, .finite .negative m₂ e₂ pos₂, hu, hw =>
    change some ((compare e₁ e₂).then (compare m₁ m₂)).swap = _
    rw [compare_finite hu hw, swap_compare]
    rfl

theorem le_unpacked {u w : UnpackedFloat} (hu : Canonical u) (hw : Canonical w) :
    u.le w = true ↔ value u ≤ value w := by
  rw [UnpackedFloat.le, compare_eq_compare_value hu hw]
  change (compare (value u) (value w)).isLE = true ↔ _
  rw [Ordering.isLE_iff_ne_gt, compare_gt_iff_gt, not_lt]

/-! ## Packed doubles -/

/-- The mantissa of a full double has a leading bit that is not stored. -/
theorem toNat_leading_append (m : BitVec 52) : (1#1 ++ m).toNat = 2 ^ 52 + m.toNat := by
  rw [BitVec.toNat_append, ← Nat.shiftLeft_add_eq_or_of_lt m.isLt]
  rfl

theorem finite_unpack {x : Float.Model} {s : Sign} {m : ℕ} {e : ℤ} {pos : 0 < m}
    (h : x.unpack = .finite s m e pos) : Canonical (.finite s m e pos) ∧ e ≤ 971 := by
  unfold Float.Model.unpack UnpackedFloat.unpack at h
  generalize x.toBits.toBitVec = bits at h
  have stored : (@unpackMantissa .binary64 bits).toNat < 2 ^ 52 := BitVec.isLt _
  have biased : (@unpackExponent .binary64 bits).toNat < 2 ^ 11 := BitVec.isLt _
  have bias : (Format.binary64.exponentBias : ℤ) = 1023 := rfl
  dsimp only at h
  rw [canonical_finite]
  split at h
  · split at h <;> cases h
  rename_i below
  -- The largest exponent marks the special values, and the least one the numbers with fewer bits.
  have below : (@unpackExponent .binary64 bits).toNat ≠ 2047 :=
    fun top => below (BitVec.eq_of_toNat_eq top)
  split at h
  · split at h
    · cases h
    rename_i least _
    have least : (@unpackExponent .binary64 bits).toNat = 0 := by
      rw [least]
      rfl
    obtain ⟨-, mantissa, exponent⟩ := UnpackedFloat.finite.inj h
    omega
  · rename_i above
    have above : (@unpackExponent .binary64 bits).toNat ≠ 0 :=
      fun least => above (BitVec.eq_of_toNat_eq least)
    obtain ⟨-, mantissa, exponent⟩ := UnpackedFloat.finite.inj h
    rw [toNat_leading_append] at mantissa
    omega

theorem log2_add_one_eq_iff {m : ℕ} (h : m < 2 ^ 53) : m.log2 + 1 = 53 ↔ 2 ^ 52 ≤ m := by
  constructor
  · intro full
    by_contra below
    rcases Nat.eq_zero_or_pos m with rfl | pos
    · simp at full
    · have := (Nat.log2_lt pos.ne').mpr (not_le.mp below)
      omega
  · intro full
    rw [(Nat.log2_eq_iff (by omega)).mpr ⟨full, h⟩]

theorem unpack_full {s : Sign} {e : BitVec 11} {m : BitVec 52} (top : e ≠ -1#11)
    (zero : e ≠ 0#11) : UnpackedFloat.unpack .binary64 (packComponents .binary64 s e m) =
      .finite s (1#1 ++ m).toNat (e.toNat - 1075)
        (toNat_leading_append m ▸ Nat.add_pos_left (by decide) _) := by
  unfold UnpackedFloat.unpack
  simp only [UnpackedFloat.unpackMantissa_packComponents,
    UnpackedFloat.unpackExponent_packComponents, UnpackedFloat.unpackSign_packComponents,
    Sign.ofBitVec_toBitVec]
  rw [if_neg top, if_neg zero]
  rfl

theorem unpack_partial {s : Sign} {m : BitVec 52} (pos : 0 < m.toNat) :
    UnpackedFloat.unpack .binary64 (packComponents .binary64 s 0#11 m) =
      .finite s m.toNat (-1074) pos := by
  have nonzero : m ≠ 0#52 := by
    rintro rfl
    exact pos.ne rfl
  unfold UnpackedFloat.unpack
  simp only [UnpackedFloat.unpackMantissa_packComponents,
    UnpackedFloat.unpackExponent_packComponents, UnpackedFloat.unpackSign_packComponents,
    Sign.ofBitVec_toBitVec]
  rw [if_neg (by decide), if_pos trivial, dif_neg nonzero]
  rfl

/-- What is stored of a finite double: an infinity where the exponent is too large. -/
theorem pack_finite (s : Sign) (m : ℕ) (e : ℤ) (pos : 0 < m) :
    UnpackedFloat.pack .binary64 (.finite s m e pos) =
      if 2 ^ 11 ≤ (e + 1023 + 52).toNat + 1 then UnpackedFloat.packedInfinity .binary64 s
      else if m.log2 + 1 = 53 then
        packComponents .binary64 s (.ofNat 11 (e + 1023 + 52).toNat) (.ofNat 52 m)
      else packComponents .binary64 s 0#11 (.ofNat 52 m) := rfl

/-- The stored exponent of a number in range is neither that of the special values nor that of the
numbers with fewer bits. -/
theorem stored_exponent {e : ℤ} (least : -1074 ≤ e) (inside : e ≤ 971) :
    (BitVec.ofNat 11 (e + 1023 + 52).toNat).toNat = (e + 1075).toNat ∧
      BitVec.ofNat 11 (e + 1023 + 52).toNat ≠ -1#11 ∧
      BitVec.ofNat 11 (e + 1023 + 52).toNat ≠ 0#11 := by
  have stored : (BitVec.ofNat 11 (e + 1023 + 52).toNat).toNat = (e + 1075).toNat := by
    rw [BitVec.toNat_ofNat]
    omega
  refine ⟨stored, fun same => ?_, fun same => ?_⟩
  · rw [same] at stored
    change 2047 = _ at stored
    omega
  · rw [same] at stored
    change 0 = _ at stored
    omega

/-- A number whose exponent is too large becomes an infinity, and every other is kept. -/
theorem unpack_pack {s : Sign} {m : ℕ} {e : ℤ} {pos : 0 < m} (h : Canonical (.finite s m e pos)) :
    (Float.Model.pack (.finite s m e pos)).unpack =
      if e ≤ 971 then .finite s m e pos else .infinity s := by
  obtain ⟨small, least, full⟩ := canonical_finite.mp h
  change UnpackedFloat.unpack .binary64 (UnpackedFloat.pack .binary64 _) = _
  rw [pack_finite]
  by_cases inside : e ≤ 971
  · rw [if_neg (by omega), if_pos inside]
    by_cases leading : 2 ^ 52 ≤ m
    · rw [if_pos ((log2_add_one_eq_iff small).mpr leading)]
      obtain ⟨exponent, top, zero⟩ := stored_exponent least inside
      rw [unpack_full top zero, UnpackedFloat.finite.injEq, toNat_leading_append, exponent,
        BitVec.toNat_ofNat]
      exact ⟨rfl, by omega, by omega⟩
    · rw [if_neg (mt (log2_add_one_eq_iff small).mp leading)]
      have mantissa : (BitVec.ofNat 52 m).toNat = m := by
        rw [BitVec.toNat_ofNat]
        omega
      have least : e = -1074 := full.resolve_left leading
      rw [unpack_partial (mantissa.symm ▸ pos), UnpackedFloat.finite.injEq]
      exact ⟨rfl, mantissa, least.symm⟩
  · rw [if_pos (by omega), if_neg inside]
    cases s <;> rfl

/-! ## Finite doubles -/

theorem size_lt {m : ℕ} {e : ℤ} (small : m < 2 ^ 53) (inside : e ≤ 971) :
    (m * 2 ^ e : ℚ) < 2 ^ (1024 : ℤ) := by
  calc (m * 2 ^ e : ℚ)
    _ < 2 ^ 53 * 2 ^ e := mul_lt_mul_of_pos_right (mod_cast small) (two_zpow_pos e)
    _ = 2 ^ (e + (53 : ℕ)) := (two_zpow_add_natCast e 53).symm
    _ ≤ 2 ^ (1024 : ℤ) := zpow_le_zpow_right₀ one_le_two (by omega)

theorem le_size {m : ℕ} {e : ℤ} (full : 2 ^ 52 ≤ m) (outside : 971 < e) :
    (2 : ℚ) ^ (1024 : ℤ) ≤ m * 2 ^ e := by
  calc (2 : ℚ) ^ (1024 : ℤ)
    _ ≤ 2 ^ (e + (52 : ℕ)) := zpow_le_zpow_right₀ one_le_two (by omega)
    _ = 2 ^ 52 * 2 ^ e := two_zpow_add_natCast e 52
    _ ≤ m * 2 ^ e := mul_le_mul_of_nonneg_right (mod_cast full) (two_zpow_pos e).le

variable {x y : Float}

theorem Canonical.isFinite {u : UnpackedFloat} (hu : Canonical u) : u.isFinite = true := by
  match u, hu with
  | .zero _, _ => rfl
  | .finite .., _ => rfl

theorem canonical_unpack (h : x.isFinite = true) : Canonical x.toModel.unpack := by
  change x.toModel.unpack.isFinite = true at h
  match unpacked : x.toModel.unpack with
  | .zero _ => trivial
  | .finite _ _ _ _ => exact (finite_unpack unpacked).1
  | .infinity _ | .notANumber => rw [unpacked] at h; cases h

theorem abs_number_lt (x : Float) : |number x| < 2 ^ (1024 : ℤ) := by
  rw [number]
  match unpacked : x.toModel.unpack with
  | .finite s m e pos =>
    obtain ⟨⟨small, -, -⟩, inside⟩ := finite_unpack unpacked
    rw [value, abs_signed, abs_of_pos (value_pos pos)]
    exact size_lt small inside
  | .zero _ | .infinity _ | .notANumber =>
    change |(0 : ℚ)| < _
    rw [abs_zero]
    exact two_zpow_pos _

theorem le_iff_unpack : x ≤ y ↔ x.toModel.unpack.le y.toModel.unpack = true := decide_eq_true_iff

theorem lt_iff_unpack : x < y ↔ x.toModel.unpack.lt y.toModel.unpack = true := decide_eq_true_iff

theorem le_iff (hx : x.isFinite = true) (hy : y.isFinite = true) :
    x ≤ y ↔ number x ≤ number y := by
  rw [le_iff_unpack]
  exact le_unpacked (canonical_unpack hx) (canonical_unpack hy)

theorem lt_iff (hx : x.isFinite = true) (hy : y.isFinite = true) :
    x < y ↔ number x < number y := by
  rw [lt_iff_unpack, UnpackedFloat.lt,
    compare_eq_compare_value (canonical_unpack hx) (canonical_unpack hy), beq_iff_eq,
    Option.some_inj]
  exact compare_lt_iff_lt

theorem beq_iff (hx : x.isFinite = true) (hy : y.isFinite = true) :
    (x == y) = true ↔ number x = number y := by
  change x.toModel.unpack.beq y.toModel.unpack = true ↔ _
  rw [UnpackedFloat.beq, compare_eq_compare_value (canonical_unpack hx) (canonical_unpack hy),
    beq_iff_eq, Option.some_inj]
  exact compare_eq_iff_eq

/-! ## Packed results -/

/-- What is packed is kept, or too large to be a number. -/
theorem unpack_pack_eq_or {u : UnpackedFloat} (hu : Canonical u) :
    (Float.Model.pack u).unpack = u ∨
      ∃ s, (Float.Model.pack u).unpack = .infinity s ∧ 2 ^ (1024 : ℤ) ≤ signed s (value u) := by
  match u, hu with
  | .zero s, _ =>
    left
    cases s <;> rfl
  | .finite s m e pos, hu =>
    rw [unpack_pack hu]
    by_cases inside : e ≤ 971
    · left
      rw [if_pos inside]
    · right
      obtain ⟨-, -, full⟩ := canonical_finite.mp hu
      rw [if_neg inside]
      refine ⟨s, rfl, ?_⟩
      rw [value, signed_signed]
      exact le_size (full.resolve_right (by omega)) (not_le.mp inside)

theorem le_infinity {u : UnpackedFloat} (hu : Canonical u) :
    u.le (.infinity .positive) = true := by
  match u, hu with
  | .zero _, _ => rfl
  | .finite .positive _ _ _, _ => rfl
  | .finite .negative _ _ _, _ => rfl

theorem infinity_le {u : UnpackedFloat} (hu : Canonical u) :
    UnpackedFloat.le (.infinity .negative) u = true := by
  match u, hu with
  | .zero _, _ => rfl
  | .finite .positive _ _ _, _ => rfl
  | .finite .negative _ _ _, _ => rfl

theorem le_pack {u : UnpackedFloat} (hu : Canonical u) (hx : x.isFinite = true)
    (h : number x ≤ value u) : x ≤ ⟨Float.Model.pack u⟩ := by
  rw [le_iff_unpack]
  change x.toModel.unpack.le (Float.Model.pack u).unpack = true
  rcases unpack_pack_eq_or hu with kept | ⟨s, large, size⟩
  · rw [kept, le_unpacked (canonical_unpack hx) hu]
    exact h
  · rw [large]
    cases s with
    | positive => exact le_infinity (canonical_unpack hx)
    | negative =>
      have inside := (abs_lt.mp (abs_number_lt x)).1
      rw [signed] at size
      linarith

theorem pack_le {u : UnpackedFloat} (hu : Canonical u) (hx : x.isFinite = true)
    (h : value u ≤ number x) : ⟨Float.Model.pack u⟩ ≤ x := by
  rw [le_iff_unpack]
  change (Float.Model.pack u).unpack.le x.toModel.unpack = true
  rcases unpack_pack_eq_or hu with kept | ⟨s, large, size⟩
  · rw [kept, le_unpacked hu (canonical_unpack hx)]
    exact h
  · rw [large]
    cases s with
    | positive =>
      have inside := (abs_lt.mp (abs_number_lt x)).2
      rw [signed] at size
      linarith
    | negative => exact infinity_le (canonical_unpack hx)

/-- What lies between two finite doubles is finite. -/
theorem finite_of_le_of_le {z : Float} (hx : x.isFinite = true) (hz : z.isFinite = true)
    (left : x ≤ y) (right : y ≤ z) : y.isFinite = true := by
  rw [le_iff_unpack] at left right
  change y.toModel.unpack.isFinite = true
  have hx := canonical_unpack hx
  have hz := canonical_unpack hz
  generalize x.toModel.unpack = x at left hx
  generalize z.toModel.unpack = z at right hz
  match y.toModel.unpack, left, right with
  | .zero _, _, _ => rfl
  | .finite _ _ _ _, _, _ => rfl
  -- No number is above the one infinity or below the other.
  | .infinity .positive, _, right =>
    match z, hz, right with
    | .zero _, _, right => cases right
    | .finite .positive _ _ _, _, right => cases right
    | .finite .negative _ _ _, _, right => cases right
  | .infinity .negative, left, _ =>
    match x, hx, left with
    | .zero _, _, left => cases left
    | .finite .positive _ _ _, _, left => cases left
    | .finite .negative _ _ _, _, left => cases left
  | .notANumber, _, right => cases right

end EquationSolver.Double
