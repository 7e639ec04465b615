import EquationSolver.Proofs.Linear.Minors
import Mathlib.Tactic.Linarith

/-!
# Diagonally dominant systems

The margin of a row is what its diagonal entry has more, in modulus, than all its other entries
together. A row from which a multiple of the pivot row is taken loses the entry that is cleared, and
the rest of the pivot row adds at most as much to the others, less the same multiple of the margin
of the pivot row. An elimination that takes the diagonal entry as its pivot therefore never makes a
margin smaller, and a row with a margin has a pivot: where every margin is at least the threshold of
a pivot, no stage has a reason to exchange rows or to break down.

## Main definitions

* `margin`: what the diagonal entry of a row has more than the rest of it
* `Reduction.KeepsMargins`: what a dominant system has become without an exchange

## Main results

* `margin_add_le_of_cleared`: a row with a multiple of another one taken from it
* `Reduction.KeepsMargins.stage`: what a stage keeps
* `reduce_of_dominant`: a dominant system is reduced, and its matrix factored, without an exchange
-/

namespace EquationSolver.Linear

open Finset

variable {n : Nat} {K : Type} [Field K] [LinearOrder K]

/-- What the entry at `i` has more in modulus than all other entries of a row together. -/
def margin (r : Fin n → K) (i : Fin n) : K := |r i| - ∑ j with j ≠ i, |r j|

variable [IsStrictOrderedRing K]

theorem margin_le_modulus (r : Fin n → K) (i : Fin n) : margin r i ≤ |r i| :=
  sub_le_self _ (sum_nonneg fun j _ => abs_nonneg (r j))

/-- Where the entries before `i` are zero, only those behind it are weighed. -/
theorem margin_of_cleared {r : Fin n → K} {i : Fin n} (cleared : ∀ j < i, r j = 0) :
    margin r i = |r i| - ∑ j with i < j, |r j| := by
  rw [margin]
  congr 1
  -- What is weighed beside the entries behind `i` is zero.
  have behind : univ.filter (i < ·) ⊆ univ.filter (· ≠ i) := by
    intro j hj
    simp only [mem_filter, mem_univ, true_and] at hj ⊢
    exact hj.ne'
  refine (sum_subset behind fun j other notBehind => ?_).symm
  simp only [mem_filter, mem_univ, true_and, not_lt] at other notBehind
  rw [cleared j (lt_of_le_of_ne notBehind other), abs_zero]

/-- A multiple of a row that clears the entry at `k` of another one makes the margin of that one
larger by as many times its own. -/
theorem margin_add_le_of_cleared {r p r' : Fin n → K} {i k : Fin n} {f : K} (other : k ≠ i)
    (taken : ∀ j, r' j = r j - f * p j) (cleared : r' k = 0) :
    margin r i + |f| * margin p k ≤ margin r' i := by
  -- The entries at `i` and `k` are weighed apart from the rest, which both margins have in common.
  let rest (q : Fin n → K) : K := ∑ j ∈ (univ.erase i).erase k, |q j|
  have marginOf (q : Fin n → K) : margin q i = |q i| - (|q k| + rest q) := by
    rw [margin, filter_ne', ← add_sum_erase _ _ (mem_erase.mpr ⟨other, mem_univ k⟩)]
  have marginOfPivot : margin p k = |p k| - (|p i| + rest p) := by
    rw [margin, filter_ne', ← add_sum_erase _ _ (mem_erase.mpr ⟨other.symm, mem_univ i⟩),
      erase_right_comm]
  have pivot : |r k| = |f| * |p k| := by
    rw [← abs_mul, ← sub_eq_zero.mp ((taken k).symm.trans cleared)]
  have diagonal : |r i| - |f| * |p i| ≤ |r' i| := by
    rw [taken, ← abs_mul]
    exact abs_sub_abs_le_abs_sub _ _
  have others : rest r' ≤ rest r + |f| * rest p := by
    rw [mul_sum, ← sum_add_distrib]
    refine sum_le_sum fun j _ => ?_
    rw [taken, ← abs_mul]
    exact abs_sub _ _
  calc margin r i + |f| * margin p k
    _ = |r i| - |f| * |p i| - (rest r + |f| * rest p) := by
      rw [marginOf, marginOfPivot, pivot]
      ring
    _ ≤ |r' i| - rest r' := sub_le_sub diagonal others
    _ = margin r' i := by rw [marginOf, cleared, abs_zero, zero_add]

namespace Reduction

variable {A : Dense K n n} {b : Vector K n} {R R' : Reduction K n} {k : Fin n}

/-- Clearing the column of a pivot whose row has a margin makes no margin smaller. -/
theorem Reduced.margin_le_clear (shape : Reduced k R) (pivot : R.matrix k k ≠ 0)
    (ahead : 0 ≤ margin (R.matrix k) k) (i : Fin n) :
    margin (R.matrix i) i ≤ margin ((R.clear k).matrix i) i := by
  rcases le_or_gt i k with above | below
  · have same : (R.clear k).matrix i = R.matrix i := funext (clear_of_le R above)
    rw [same]
  · -- Taking a multiple of a row with a margin can only add to the margin of the other.
    calc margin (R.matrix i) i
      _ ≤ margin (R.matrix i) i + |R.factor k i| * margin (R.matrix k) k :=
        le_add_of_nonneg_right (mul_nonneg (abs_nonneg _) ahead)
      _ ≤ margin ((R.clear k).matrix i) i :=
        margin_add_le_of_cleared below.ne (shape.clear_row pivot below) (clear_self R below)

/-- What a system has become without an exchange and without the loss of a margin. -/
structure KeepsMargins (A : Dense K n n) (R : Reduction K n) : Prop where
  /-- No exchange was made. -/
  exchanges : R.exchanges = []
  /-- No margin is smaller than that of the given row. -/
  margins : ∀ i, margin (A i) i ≤ margin (R.matrix i) i

/-- With margins above the threshold a stage takes the diagonal entry as it is. -/
theorem KeepsMargins.stage (dominant : ∀ i, 1e-12 ≤ margin (A i) i) (h : KeepsMargins A R)
    (shape : Reduced k R) :
    ∃ R', stage .natural k R = .ok R' ∧ Reduced (k + 1) R' ∧ KeepsMargins A R' := by
  -- The margin that the pivot row still has is less than its diagonal entry.
  have large : 1e-12 ≤ margin (R.matrix k) k := (dominant k).trans (h.margins k)
  have notTiny : ¬ IsTiny (R.matrix k k) := (large.trans (margin_le_modulus _ k)).not_gt
  refine ⟨R.clear k, stage_eq_ok_iff.mpr ⟨k, k, ?_, notTiny, by rw [bring_self]⟩,
    shape.clear notTiny, h.exchanges, fun i => (h.margins i).trans ?_⟩
  · rw [Pivoting.pivot, if_neg notTiny]
  · have ahead : 0 ≤ margin (R.matrix k) k := le_trans (by norm_num) large
    exact shape.margin_le_clear (ne_zero_of_not_isTiny notTiny) ahead i

theorem exists_keepsMargins (dominant : ∀ i, 1e-12 ≤ margin (A i) i) (b : Vector K n) :
    ∃ R, reduce .natural A b = .ok R ∧ Reduced n R ∧ KeepsMargins A R :=
  exists_stages (P := fun k R => Reduced k R ∧ KeepsMargins A R)
    ⟨reduced_start A b, rfl, fun _ => le_rfl⟩
    (fun _ _ before => before.2.stage dominant before.1) n le_rfl

/-- The rows of a reduced matrix have nothing before the diagonal. -/
theorem KeepsMargins.margin_le (h : KeepsMargins A R) (shape : Reduced n R) (k : Fin n) :
    margin (A k) k ≤ |R.matrix k k| - ∑ j with k < j, |R.matrix k j| := by
  rw [← margin_of_cleared fun j left => shape.cleared k j j.isLt left]
  exact h.margins k

end Reduction

/-- **Diagonally dominant systems need no pivoting.** Where every row has a margin of at least
`1e-12`, an elimination that takes the diagonal entry as its pivot ends without an exchange,
whatever the right-hand side, and so does the factorization, with its rows in the order given. In
both upper triangles every row has at least the margin of the given row. -/
theorem reduce_of_dominant (A : Dense K n n) (dominant : ∀ i, 1e-12 ≤ margin (A i) i) :
    (∀ b, ∃ R, reduce .natural A b = .ok R ∧ R.exchanges = [] ∧
      ∀ k, margin (A k) k ≤ |R.matrix k k| - ∑ j with k < j, |R.matrix k j|) ∧
    ∃ F, factorStages A = .ok F ∧ F.exchanges = [] ∧
      factorize A = .ok F.factors ∧ F.factors.order.get = id ∧
      ∀ k, margin (A k) k ≤ |F.factors.upper k k| - ∑ j with k < j, |F.factors.upper k j| := by
  constructor
  · intro b
    obtain ⟨R, reduced, shape, keeps⟩ := Reduction.exists_keepsMargins dominant b
    exact ⟨R, reduced, keeps.exchanges, keeps.margin_le shape⟩
  · -- The factorization finds the triangle of an elimination with any right-hand side.
    obtain ⟨R, reduced, shape, keeps⟩ := Reduction.exists_keepsMargins dominant (zeros n)
    obtain ⟨F, factored, follows⟩ := exists_factorStages reduced
    have none : F.exchanges = [] := follows.exchanges.symm.trans keeps.exchanges
    refine ⟨F, factored, none, factorize_eq_ok_iff.mpr ⟨F, factored, rfl⟩,
      (Factoring.unexchanged_of_exchanges factored none).order, ?_⟩
    rw [upper_eq_matrix follows]
    exact keeps.margin_le shape

/-- A matrix whose first row has a margin of just `1e-12`. -/
def marginAtThreshold : Dense ℚ 2 2 := ⟨#v[#v[1 + 1e-12, -1], #v[2, 5]]⟩

theorem reduce_of_dominant_marginAtThreshold : (∀ i, 1e-12 ≤ margin (marginAtThreshold i) i) ∧
    (∃ R, reduce .natural marginAtThreshold #v[1, 1] = .ok R ∧ R.exchanges = [] ∧
      3 ≤ |R.matrix 1 1|) ∧
    ∃ F, factorize marginAtThreshold = .ok F ∧ F.order.get = id ∧ 3 ≤ |F.upper 1 1| := by
  have dominant : ∀ i, 1e-12 ≤ margin (marginAtThreshold i) i := by decide +kernel
  have second : margin (marginAtThreshold 1) 1 = 3 := by decide +kernel
  have last (U : Dense ℚ 2 2) : ∑ j with 1 < j, |U 1 j| = 0 := sum_eq_zero fun j hj => by
    have behind : 1 < j := (mem_filter.mp hj).2
    omega
  obtain ⟨eliminated, F, -, -, factored, order, margins⟩ :=
    reduce_of_dominant marginAtThreshold dominant
  obtain ⟨R, reduced, exchanges, margins'⟩ := eliminated #v[1, 1]
  have large := margins 1
  have large' := margins' 1
  rw [second, last, sub_zero] at large large'
  exact ⟨dominant, ⟨R, reduced, exchanges, large'⟩, F.factors, factored, order, large⟩

end EquationSolver.Linear
