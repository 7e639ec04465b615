import EquationSolver.Proofs.Linear.Verdict

/-!
# Leading minors and pivots

While no rows are exchanged, a factorization adds multiples of earlier rows to later ones. This
keeps the determinant of each leading block, and the block becomes triangular as its columns are
done: the minor is the product of the pivots found so far. Each pivot is therefore a quotient of
consecutive minors of the given matrix, and whether it counts as zero can be read off that matrix.
Where no quotient counts as zero, no stage has a reason to exchange rows or to break down.

## Main definitions

* `leadingMinor`: the determinant of the first rows and columns
* `SoundMinors`: no minor is zero, and none is too small beside the one before it
* `Factoring.Unexchanged`: a partly factored matrix whose rows were not exchanged

## Main results

* `Factoring.Unexchanged.leadingMinor_eq_prod`: a minor is a product of pivots
* `Factoring.Unexchanged.pivot_eq_div`: a pivot is a quotient of minors
* `exchanges_eq_nil_iff`: the matrices that are factored without an exchange
* `factorize_of_soundMinors`: the pivots of a matrix with sound minors
-/

namespace EquationSolver.Linear

open Finset

variable {n : Nat} {K : Type} [Field K]

/-- The determinant of the first `m` rows and columns. -/
def leadingMinor (A : Dense K n n) (m : Fin (n + 1)) : K :=
  (Matrix.of fun i j : Fin m => A (i.castLE m.is_le) (j.castLE m.is_le)).det

theorem leadingMinor_zero (A : Dense K n n) : leadingMinor A 0 = 1 :=
  Matrix.det_eq_one_of_card_eq_zero (Fintype.card_fin 0)

namespace Factoring

variable {A : Dense K n n} {F F' : Factoring K n} {k : Nat}

/-- What a matrix has become after `k` stages without an exchange. -/
structure Unexchanged (A : Dense K n n) (k : Nat) (F : Factoring K n) : Prop where
  /-- Every row is where it was. -/
  order : F.order.get = id
  /-- No exchange was made. -/
  exchanges : F.exchanges = []
  /-- The multipliers and the reduced matrix make up the given one. -/
  splits : Splits A k F

theorem unexchanged_start (A : Dense K n n) : Unexchanged A 0 (start A) where
  order := by
    funext i
    simp [start]
  exchanges := rfl
  splits := splits_start A

/-- The multipliers of a leading block stand in the block itself. -/
theorem Unexchanged.block (h : Unexchanged A k F) {m : Fin (n + 1)} (i j : Fin m) :
    F.reduced k (i.castLE m.is_le) (j.castLE m.is_le) +
      ∑ l : Fin m, F.multiplier k (i.castLE m.is_le) (l.castLE m.is_le) *
        F.reduced k (l.castLE m.is_le) (j.castLE m.is_le) =
      A (i.castLE m.is_le) (j.castLE m.is_le) := by
  have given := h.splits (i.castLE m.is_le) (j.castLE m.is_le)
  rw [h.order, id_eq] at given
  rw [← given]
  congr 1
  refine Fintype.sum_of_injective _ (Fin.castLE_injective m.is_le) _ _ (fun l outside => ?_)
    fun _ => rfl
  -- A row of the block has no multiplier for a row below the block.
  have behind : ¬ l < i.castLE m.is_le := fun before =>
    outside ⟨⟨l, lt_trans before i.isLt⟩, rfl⟩
  rw [multiplier, if_neg fun left => behind left.1, zero_mul]

/-- While its columns are done, and one more, a leading block is triangular: its determinant is the
product of the pivots in it. -/
theorem Unexchanged.leadingMinor_eq_prod (h : Unexchanged A k F) {m : Fin (n + 1)}
    (hm : (m : Nat) ≤ k + 1) :
    leadingMinor A m = ∏ i : Fin m, F.combined (i.castLE m.is_le) (i.castLE m.is_le) := by
  let multiples (i l : Fin m) : K := F.multiplier k (i.castLE m.is_le) (l.castLE m.is_le)
  let triangle : Matrix (Fin m) (Fin m) K :=
    .of fun i j => F.reduced k (i.castLE m.is_le) (j.castLE m.is_le)
  -- Adding the multiples back is a product with a matrix whose determinant is one.
  have product : Matrix.of (fun i j : Fin m => A (i.castLE m.is_le) (j.castLE m.is_le)) =
      (1 + Matrix.of multiples) * triangle := by
    ext i j
    rw [add_mul, one_mul, Matrix.add_apply, Matrix.mul_apply]
    exact (h.block i j).symm
  have upper : triangle.IsUpperTriangular := by
    intro i j left
    have left : (j : Nat) < i := left
    have done : (j : Nat) < k := by omega
    exact if_neg (not_or.mpr ⟨left.not_ge, done.not_ge⟩)
  have earlier (i l : Fin m) (right : ¬ l < i) : multiples i l = 0 :=
    if_neg fun left => right left.1
  rw [leadingMinor, product, Matrix.det_mul, det_one_add earlier, one_mul,
    Matrix.det_of_isUpperTriangular upper]
  exact prod_congr rfl fun i _ => if_pos (.inl le_rfl)

/-- A pivot is the quotient of the minors with it and without it. -/
theorem Unexchanged.pivot_eq_div (h : Unexchanged A k F) {i : Fin n} (hi : (i : Nat) ≤ k)
    (before : leadingMinor A i.castSucc ≠ 0) :
    F.combined i i = leadingMinor A i.succ / leadingMinor A i.castSucc := by
  rw [eq_div_iff before, h.leadingMinor_eq_prod (m := i.succ) (Nat.succ_le_succ hi),
    h.leadingMinor_eq_prod (m := i.castSucc) (Nat.le_succ_of_le hi), mul_comm]
  exact (Fin.prod_univ_castSucc fun l => F.combined (l.castLE i.isLt) (l.castLE i.isLt)).symm

/-- A stage that makes no exchange keeps every row where it was. -/
theorem Unexchanged.divide {k : Fin n} (h : Unexchanged A k F) (pivot : F.combined k k ≠ 0) :
    Unexchanged A (k + 1) (F.divide k) where
  order := h.order
  exchanges := h.exchanges
  splits := h.splits.divide pivot

end Factoring

/-! ## When no stage exchanges rows -/

section

variable [LinearOrder K]

/-- No minor is zero, and none is too small beside the one before it for their quotient to be a
pivot. -/
structure SoundMinors (A : Dense K n n) : Prop where
  /-- No leading minor is zero. -/
  ne_zero : ∀ m, leadingMinor A m ≠ 0
  /-- None is less than `1e-12` times the one before it. -/
  large : ∀ k : Fin n, 1e-12 * |leadingMinor A k.castSucc| ≤ |leadingMinor A k.succ|

variable [IsStrictOrderedRing K] {A : Dense K n n} {F F' : Factoring K n}

/-- Whether a quotient counts as zero is seen from the minors. -/
theorem isTiny_div_iff {x y : K} (h : y ≠ 0) : IsTiny (x / y) ↔ |x| < 1e-12 * |y| := by
  change |x / y| < 1e-12 ↔ _
  rw [abs_div, div_lt_iff₀ (abs_pos.mpr h)]

namespace Factoring

/-- With sound minors a stage takes the diagonal entry as it is. -/
theorem Unexchanged.stage {k : Fin n} (sound : SoundMinors A) (h : Unexchanged A k F) :
    ∃ F', Factoring.stage k F = .ok F' ∧ Unexchanged A (k + 1) F' := by
  have before := sound.ne_zero k.castSucc
  have notTiny : ¬ IsTiny (F.combined k k) := by
    rw [h.pivot_eq_div le_rfl before, isTiny_div_iff before]
    exact (sound.large k).not_gt
  refine ⟨F.divide k, stage_eq_ok_iff.mpr ⟨k, ?_, notTiny, by rw [bring_self]⟩,
    h.divide (ne_zero_of_not_isTiny notTiny)⟩
  rw [Pivoting.pivot, if_neg notTiny]

theorem exists_unexchanged (sound : SoundMinors A) :
    ∃ F, factorStages A = .ok F ∧ Unexchanged A n F :=
  exists_stages (unexchanged_start A) (fun _ _ => Unexchanged.stage sound) n le_rfl

/-- What made no exchange has every row where it was. -/
theorem unexchanged_of_exchanges (factored : factorStages A = .ok F) (none : F.exchanges = []) :
    Unexchanged A n F := by
  refine stages_induction (P := fun k F => F.exchanges = [] → Unexchanged A k F)
    (fun _ => unexchanged_start A) ?_ n le_rfl F factored none
  intro k F F' before done none
  obtain ⟨p, -, notTiny, rfl⟩ := brought_of_stage done
  change F.exchanges ++ exchangesAt k p k = [] at none
  obtain ⟨earlier, here⟩ := List.append_eq_nil_iff.mp none
  -- A stage that recorded nothing took the diagonal entry as its pivot.
  obtain rfl : p = k := by
    by_contra other
    simp [exchangesAt, other] at here
  rw [bring_self] at notTiny ⊢
  exact (before earlier).divide (ne_zero_of_not_isTiny notTiny)

/-- The quotients of the minors are the pivots that were found, none of which counts as zero. -/
theorem Unexchanged.soundMinors (h : Unexchanged A n F) (shape : Ordered n F) : SoundMinors A := by
  have minor (m : Fin (n + 1)) : leadingMinor A m ≠ 0 := by
    rw [h.leadingMinor_eq_prod m.isLt.le]
    exact prod_ne_zero_iff.mpr fun i _ => ne_zero_of_not_isTiny (shape.diagonal _ (Fin.isLt _))
  refine ⟨minor, fun k => ?_⟩
  have pivot := shape.diagonal k k.isLt
  rwa [h.pivot_eq_div k.isLt.le (minor _), isTiny_div_iff (minor _), not_lt] at pivot

end Factoring

/-- The matrices that are factored without an exchange are those with sound minors. -/
theorem exchanges_eq_nil_iff :
    (∃ F, factorStages A = .ok F ∧ F.exchanges = []) ↔ SoundMinors A := by
  constructor
  · rintro ⟨F, factored, none⟩
    exact (Factoring.unexchanged_of_exchanges factored none).soundMinors
      (Factoring.ordered_of_factorStages factored)
  · intro sound
    obtain ⟨F, factored, unexchanged⟩ := Factoring.exists_unexchanged sound
    exact ⟨F, factored, unexchanged.exchanges⟩

/-- **Pivots are quotients of leading minors.** A matrix with sound minors is factored with its rows
in the order given, and each diagonal entry of the upper factor is the quotient of a minor and the
one before it. An elimination that takes the diagonal entry as its pivot makes no exchange either,
whatever the right-hand side. -/
theorem factorize_of_soundMinors (A : Dense K n n) (sound : SoundMinors A) :
    (∃ F, factorize A = .ok F ∧ F.order.get = id ∧
      ∀ k, F.upper k k = leadingMinor A k.succ / leadingMinor A k.castSucc) ∧
    ∀ b, ∃ R, reduce .natural A b = .ok R ∧ R.exchanges = [] := by
  obtain ⟨F, factored, unexchanged⟩ := Factoring.exists_unexchanged sound
  refine ⟨⟨F.factors, factorize_eq_ok_iff.mpr ⟨F, factored, rfl⟩, unexchanged.order, fun k => ?_⟩,
    fun b => ?_⟩
  · rw [← unexchanged.pivot_eq_div k.isLt.le (sound.ne_zero _)]
    simp [Factoring.factors]
  · obtain ⟨R, reduced, follows⟩ := exists_reduce b factored
    exact ⟨R, reduced, follows.exchanges.trans unexchanged.exchanges⟩

/-- The matrix with rows `1e-12, 1` and `1, 0`, whose first pivot is just large enough. -/
def pivotAtThreshold : Dense ℚ 2 2 := ⟨#v[#v[1e-12, 1], #v[1, 0]]⟩

theorem leadingMinor_pivotAtThreshold : leadingMinor pivotAtThreshold = ![1, 1e-12, -1] := by
  funext m
  match m with
  | 0 => exact leadingMinor_zero _
  | 1 => exact Matrix.det_fin_one _
  | 2 => exact (Matrix.det_fin_two _).trans (by decide +kernel)

theorem factorize_of_soundMinors_pivotAtThreshold : SoundMinors pivotAtThreshold ∧
    ∃ F, factorize pivotAtThreshold = .ok F ∧ F.order.get = id ∧ F.upper 0 0 = 1e-12 ∧
      F.upper 1 1 = -1e12 ∧
      ∃ R, reduce .natural pivotAtThreshold #v[1, 1] = .ok R ∧ R.exchanges = [] := by
  have sound : SoundMinors pivotAtThreshold := by
    constructor <;> rw [leadingMinor_pivotAtThreshold] <;> decide +kernel
  obtain ⟨⟨F, factored, order, pivots⟩, eliminated⟩ :=
    factorize_of_soundMinors pivotAtThreshold sound
  rw [leadingMinor_pivotAtThreshold] at pivots
  refine ⟨sound, F, factored, order, (pivots 0).trans ?_, (pivots 1).trans ?_, eliminated _⟩
  · decide +kernel
  · decide +kernel

end

end EquationSolver.Linear
