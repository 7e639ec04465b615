import EquationSolver.Proofs.Double.Order
import EquationSolver.Proofs.Double.Size
import EquationSolver.Linear.Cholesky

/-!
# Square roots of doubles

The mantissa is shifted until its integer root has all the bits that a double has room for. The root
of what is left out is not rational, so it is not compared with a double as the other results are:
a double whose square is no larger than the number is itself taken for the number that was cut off,
or it is below all the bits that were kept.

## Main results

* `le_sqrt`: a double is not above the root of a number that its square is not above
* `not_isTiny_sqrt`: the root of a double that passes the test of a diagonal entry of a
  factorization is no zero, infinities and what is no number included
-/

namespace EquationSolver.Double

open Float.Model
open Float.Model.UnpackedFloat (Accuracy ExtendedMantissa)

/-- What was left out of an integer root. -/
def rootAccuracy (p : ℕ) : Accuracy :=
  if p - p.sqrt * p.sqrt = 0 then .exact
  else .inexact (if p - p.sqrt * p.sqrt ≤ p.sqrt then .lt else .gt)

/-- A number whose square is not above a whole number is not above some number whose cut off is the
integer root. -/
theorem exists_cutOff_sqrt {p : ℕ} {z : ℚ} (h : z ^ 2 ≤ p) :
    ∃ q, z ≤ q ∧ CutOff (.ofMantissaAndAccuracy p.sqrt (rootAccuracy p)) q := by
  have next : (p : ℚ) < (p.sqrt + 1) ^ 2 := by exact_mod_cast Nat.lt_succ_sqrt' p
  have below : z < p.sqrt + 1 := lt_of_pow_lt_pow_left₀ 2 (by positivity) (h.trans_lt next)
  rcases lt_or_ge (p.sqrt : ℚ) z with above | within
  · -- The number itself has the root for its whole part, and something behind it.
    refine ⟨z, le_rfl, ?_⟩
    constructor <;> rw [mantissa_ofMantissaAndAccuracy]
    · exact above.le
    · exact below
    · exact fun whole => absurd whole above.ne'
  by_cases square : p - p.sqrt * p.sqrt = 0
  · rw [rootAccuracy, if_pos square]
    exact ⟨p.sqrt, within, cutOff_exact _⟩
  · refine ⟨p.sqrt + 1 / 2, by linarith, ?_⟩
    constructor <;> rw [mantissa_ofMantissaAndAccuracy]
    · linarith
    · linarith
    · intro whole
      linarith

/-- The root of a mantissa has bits enough, unless its exponent is the least one. -/
theorem le_log2_sqrt {m k : ℕ} (pos : 0 < m) (h : 104 ≤ m.log2 + k) :
    52 ≤ (m <<< k).sqrt.log2 := by
  have shifted : 0 < m <<< k := by
    rw [Nat.shiftLeft_eq]
    positivity
  have enough : 2 ^ 52 ≤ (m <<< k).sqrt := by
    rw [Nat.le_sqrt]
    calc 2 ^ 52 * 2 ^ 52
      _ = 2 ^ 104 := by norm_num
      _ ≤ 2 ^ (m <<< k).log2 := by
        rw [log2_shiftLeft pos]
        exact Nat.pow_le_pow_right two_pos h
      _ ≤ m <<< k := Nat.log2_self_le shifted.ne'
  exact (Nat.le_log2 (by omega)).mpr enough

/-- The root of a number is canonical and not below a double whose square is not above it. -/
theorem le_value_sqrt {m : ℕ} {e : ℤ} (pos : 0 < m) {b : ℚ} (hb : Representable b)
    (h : b ^ 2 ≤ m * 2 ^ e) :
    Canonical (UnpackedFloat.sqrt .binary64 (.finite .positive m e pos)) ∧
      b ≤ value (UnpackedFloat.sqrt .binary64 (.finite .positive m e pos)) := by
  obtain ⟨t, target⟩ : ∃ t, min (e / 2) (Format.binary64.targetExponent
    ((totalExponent m e + 1) / 2)) = t := ⟨_, rfl⟩
  obtain ⟨k, shift⟩ : ∃ k : ℕ, e = 2 * t + k := by
    have := target ▸ min_le_left (e / 2) _
    exact Int.exists_add_of_le (by omega)
  have amount : (e - 2 * t).toNat = k := by omega
  have unfolded : UnpackedFloat.sqrt .binary64 (.finite .positive m e pos) =
      UnpackedFloat.roundWithAccuracy .binary64 .positive (m <<< k).sqrt t
        (rootAccuracy (m <<< k)) := by
    rw [← amount, ← target]
    rfl
  have room : t ≤ Format.binary64.targetExponent (totalExponent (m <<< k).sqrt t) := by
    rw [targetExponent_eq]
    rw [targetExponent_binary64, totalExponent] at target
    by_cases least : t ≤ -1074
    · omega
    · have := le_log2_sqrt (k := k) pos (by omega)
      omega
  -- In units of the last bit of the root, the square is that of the shifted mantissa.
  have unit := two_zpow_pos t
  have scaled : (b / 2 ^ t) ^ 2 ≤ (m <<< k : ℕ) := by
    have size : (m * 2 ^ e : ℚ) = (m <<< k : ℕ) * (2 ^ t) ^ 2 := by
      rw [← shiftLeft_mul_zpow m k e, shift, add_sub_cancel_right, two_mul,
        zpow_add₀ two_ne_zero, sq]
    rw [div_pow, div_le_iff₀ (by positivity), ← size]
    exact h
  obtain ⟨q, above, cut⟩ := exists_cutOff_sqrt scaled
  obtain ⟨canonical, rounds⟩ := rounds_roundWithAccuracy (s := .positive) cut room
  rw [unfolded]
  refine ⟨canonical, (rounds b hb).2 ?_⟩
  rw [signed, ← div_le_iff₀ unit]
  exact above

variable {x y : Float}

/-- A double is not above the root of a number that its square is not above. -/
theorem le_sqrt (hx : x.isFinite = true) (hy : y.isFinite = true) (positive : 0 < number x)
    (h : number y ^ 2 ≤ number x) : y ≤ x.sqrt := by
  have representable : Representable (number y) := representable_value (canonical_unpack hy)
  have canonical := canonical_unpack hx
  rw [Float.sqrt, Float.Model.sqrt]
  rw [show number x = value x.toModel.unpack from rfl] at positive h
  match x.toModel.unpack, canonical, positive, h with
  | .finite .positive m e pos, _, _, h =>
    obtain ⟨canonical, below⟩ := le_value_sqrt pos representable h
    exact le_pack canonical hy below
  | .finite .negative m e pos, _, positive, _ =>
    exact absurd positive (neg_neg_of_pos (value_pos pos)).not_gt
  | .zero _, _, positive, _ => exact absurd positive (lt_irrefl 0)

/-- What is not above a double is not above its modulus. -/
theorem not_modulus_lt_of_le (h : x ≤ y) : ¬ modulus y < x := by
  intro below
  have lt := Double.lt_of_lt_of_le below h
  have modulus_eq : modulus y = ⟨Float.Model.pack y.toModel.unpack.abs⟩ := rfl
  rcases canonical_or_special y with canonical | ⟨s, special⟩ | special
  · have finite : y.isFinite = true := canonical.isFinite
    obtain ⟨finite', size⟩ := finite_modulus finite
    rw [lt_iff finite' finite, size] at lt
    exact absurd lt (le_abs_self _).not_gt
  · rw [lt_iff_unpack, modulus_eq, special] at lt
    cases s <;> revert lt <;> decide +kernel
  · rw [lt_iff_unpack, modulus_eq, special] at lt
    revert lt
    decide +kernel

/-- The root of what passes the test of a diagonal entry counts as no zero. -/
theorem not_isTiny_sqrt (h : ¬ x ≤ Linear.symmetryTolerance) : ¬ IsTiny x.sqrt := by
  rcases canonical_or_special x with canonical | special
  · have finite : x.isFinite = true := canonical.isFinite
    rw [Linear.symmetryTolerance, le_iff finite (by decide), not_le] at h
    have least : 0 < number 1e-10 ∧ number 1e-12 ^ 2 ≤ number 1e-10 := by decide +kernel
    exact not_modulus_lt_of_le
      (le_sqrt finite (by decide) (least.1.trans h) (least.2.trans h.le))
  · -- The root of an infinity is one or no number, and neither is below anything.
    rw [IsTiny, Float.sqrt, Float.Model.sqrt]
    rcases special with ⟨s, special⟩ | special
    · rw [special]
      cases s <;> decide +kernel
    · rw [special]
      decide +kernel

end EquationSolver.Double
