import EquationSolver.Proofs.Linear.Splitting
import Mathlib.Tactic.FieldSimp
import Mathlib.Tactic.Linarith
import Mathlib.Tactic.Positivity

/-!
# The energy of a vector

A symmetric system has an energy, a quadratic function whose gradient is the residual. Along one
coordinate it is a parabola, at its lowest point where the residual of that row vanishes. A
Gauss-Seidel sweep moves one component after the other to such a point: when it comes to component
`i`, the components before have their new values and the others their old ones, so its row is solved
at the very vector that the sweep has reached. Each step therefore takes from the energy half the
diagonal entry times the square of the move. A Jacobi sweep solves its rows at another vector than
the one it moves, and has no such law.

## Main definitions

* `energy`: the energy of a vector
* `UpdatedTo`: a vector that a sweep has reached, with what the energy has lost on the way

## Main results

* `energy_add_single`: the energy along a coordinate
* `gaussSeidelEntry_sub`: a step moves a component by its residual over the diagonal entry
* `energy_gaussSeidelSweep`: what a sweep takes from the energy
* `energy_descends`: a sweep of a positive definite system
-/

namespace EquationSolver.Linear

open Finset Matrix

variable {n : Nat} {K : Type} [Field K]

/-- The energy of a vector in a system: half its quadratic form, less its product with the
right-hand side. -/
def energy (A : Dense K n n) (b x : Fin n → K) : K :=
  x ⬝ᵥ Matrix.of A.entry *ᵥ x / (2 : ℕ) - b ⬝ᵥ x

variable {A : Dense K n n} {b x y : Vector K n}

/-! ## Along a coordinate -/

/-- A symmetric matrix may act on either factor of a product. -/
theorem dotProduct_mulVec_comm (symmetric : ∀ i j, A i j = A j i) (v w : Fin n → K) :
    v ⬝ᵥ Matrix.of A.entry *ᵥ w = w ⬝ᵥ Matrix.of A.entry *ᵥ v := by
  have transposed : (Matrix.of A.entry)ᵀ = Matrix.of A.entry := by
    ext i j
    exact symmetric j i
  rw [dotProduct_mulVec, ← mulVec_transpose, transposed, dotProduct_comm]

/-- Along a coordinate the energy is a parabola, with the residual as its slope at the start. -/
theorem energy_add_single [CharZero K] (symmetric : ∀ i j, A i j = A j i) (b x : Fin n → K)
    (i : Fin n) (t : K) :
    energy A b (x + Pi.single i t) =
      energy A b x + t * ((Matrix.of A.entry *ᵥ x) i - b i) + A i i * t ^ 2 / 2 := by
  have mixed := dotProduct_mulVec_comm symmetric x (Pi.single i t)
  have square : (Matrix.of A.entry *ᵥ Pi.single i t) i = A i i * t := by
    simp
  rw [energy, energy, Nat.cast_two, mulVec_add, add_dotProduct, dotProduct_add, dotProduct_add,
    dotProduct_add, mixed, single_dotProduct, single_dotProduct, dotProduct_single, square]
  field_simp
  ring

theorem get_setEntry_eq_add_single (v : Vector K n) (i : Fin n) (e : K) :
    (setEntry v i e).get = v.get + Pi.single i (e - v.get i) := by
  funext j
  rw [get_setEntry, Pi.add_apply]
  by_cases same : i = j
  · subst same
    rw [if_pos rfl, Pi.single_eq_same, add_sub_cancel]
  · rw [if_neg same, Pi.single_eq_of_ne (Ne.symm same), add_zero]

/-! ## One step of a sweep -/

/-- A step moves a component by its residual over the diagonal entry, provided that the components
behind it have not been moved yet. -/
theorem gaussSeidelEntry_sub {i : Fin n} (diagonal : A i i ≠ 0)
    (behind : ∀ j, i < j → y.get j = x.get j) :
    A i i * (gaussSeidelEntry A b x y i - y.get i) =
      b.get i - (Matrix.of A.entry *ᵥ y.get) i := by
  have row : (Matrix.of A.entry *ᵥ y.get) i = A i i * y.get i +
      (∑ j with i < j, A i j * y.get j + ∑ j with j < i, A i j * y.get j) := by
    have values := StationaryMethod.gaussSeidel.sum_row i fun j => A i j * y.get j
    simp only [StationaryMethod.oldFor_gaussSeidel_iff] at values
    exact values
  have old : ∑ j with i < j, A i j * y.get j = ∑ j with i < j, A i j * x.get j :=
    sum_congr rfl fun j hj => by rw [behind j (mem_filter.mp hj).2]
  rw [row, old, gaussSeidelEntry, sumWhere_eq, sumWhere_eq, mul_sub, mul_div_cancel₀ _ diagonal]
  ring

/-- A vector that a sweep has reached before it comes to component `k`: the others have not been
moved, and the moves have taken their squares from the energy. -/
structure UpdatedTo (A : Dense K n n) (b x : Vector K n) (k : Nat) (y : Vector K n) : Prop where
  /-- The components from `k` on have their old values. -/
  unmoved : ∀ j : Fin n, k ≤ j → y.get j = x.get j
  /-- What the energy has lost, it has lost by the moves. -/
  lost : energy A b.get y.get + (∑ j, A j j * (y.get j - x.get j) ^ 2) / 2 =
    energy A b.get x.get

section

variable [CharZero K] (symmetric : ∀ i j, A i j = A j i)
include symmetric

theorem UpdatedTo.step {k : Fin n} (diagonal : A k k ≠ 0) (h : UpdatedTo A b x k y) :
    UpdatedTo A b x (k + 1) (setEntry y k (gaussSeidelEntry A b x y k)) := by
  set e := gaussSeidelEntry A b x y k with entry
  have move : A k k * (e - y.get k) = b.get k - (Matrix.of A.entry *ᵥ y.get) k :=
    gaussSeidelEntry_sub diagonal fun j behind => h.unmoved j behind.le
  constructor
  · intro j later
    rw [get_setEntry, if_neg (Fin.ne_of_val_ne (by omega)), h.unmoved j (by omega)]
  · -- The move of this component is new among the squares, and it is what the energy loses.
    have squares : ∑ j, A j j * ((setEntry y k e).get j - x.get j) ^ 2 =
        ∑ j, A j j * (y.get j - x.get j) ^ 2 + A k k * (e - y.get k) ^ 2 := by
      rw [← add_sum_erase univ _ (mem_univ k),
        ← add_sum_erase univ (fun j => A j j * (y.get j - x.get j) ^ 2) (mem_univ k),
        get_setEntry, if_pos rfl, h.unmoved k le_rfl, sub_self]
      have others : ∑ j ∈ univ.erase k, A j j * ((setEntry y k e).get j - x.get j) ^ 2 =
          ∑ j ∈ univ.erase k, A j j * (y.get j - x.get j) ^ 2 :=
        sum_congr rfl fun j hj => by rw [get_setEntry, if_neg (ne_of_mem_erase hj).symm]
      rw [others]
      ring
    rw [← h.lost, squares, get_setEntry_eq_add_single, energy_add_single symmetric,
      ← neg_sub (b.get k), ← move]
    field_simp
    ring

/-- A Gauss-Seidel sweep takes from the energy half the squares of its moves, each as often as the
diagonal entry says. -/
theorem energy_gaussSeidelSweep (diagonal : ∀ i, A i i ≠ 0) (b x : Vector K n) :
    energy A b.get (gaussSeidelSweep A b x).get +
        (∑ j, A j j * ((gaussSeidelSweep A b x).get j - x.get j) ^ 2) / 2 =
      energy A b.get x.get := by
  have start : UpdatedTo A b x 0 x := by
    refine ⟨fun _ _ => rfl, ?_⟩
    simp
  have reached : UpdatedTo A b x n (gaussSeidelSweep A b x) :=
    foldl_induction start fun k y before => before.step symmetric (diagonal k)
  exact reached.lost

end

/-! ## Positive definite systems -/

variable [LinearOrder K] [IsStrictOrderedRing K]

theorem diagonal_pos (positive : ∀ v : Fin n → K, v ≠ 0 → 0 < v ⬝ᵥ Matrix.of A.entry *ᵥ v)
    (i : Fin n) : 0 < A i i := by
  have unit : (Pi.single i 1 : Fin n → K) ≠ 0 := Pi.single_ne_zero_iff.mpr one_ne_zero
  simpa using positive _ unit

/-- With a positive diagonal, a sweep that takes nothing from the energy moves nothing. -/
theorem sum_moves_eq_zero_iff (diagonal : ∀ i, 0 < A i i) :
    ∑ j, A j j * (y.get j - x.get j) ^ 2 = 0 ↔ y = x := by
  have terms : ∀ j ∈ univ, 0 ≤ A j j * (y.get j - x.get j) ^ 2 := fun j _ =>
    mul_nonneg (diagonal j).le (sq_nonneg _)
  rw [sum_eq_zero_iff_of_nonneg terms, ← get_injective.eq_iff, funext_iff]
  simp only [mem_univ, true_implies, mul_eq_zero, (diagonal _).ne', false_or, sq_eq_zero_iff,
    sub_eq_zero]

/-- **A Gauss-Seidel sweep descends.** In a symmetric positive definite system it never raises the
energy, and it leaves the energy as it was exactly when the vector solves the system. -/
theorem energy_descends (A : Dense K n n) (symmetric : ∀ i j, A i j = A j i)
    (positive : ∀ v : Fin n → K, v ≠ 0 → 0 < v ⬝ᵥ Matrix.of A.entry *ᵥ v) (b x : Vector K n) :
    energy A b.get (gaussSeidelSweep A b x).get ≤ energy A b.get x.get ∧
      (energy A b.get (gaussSeidelSweep A b x).get = energy A b.get x.get ↔ A.mulVec x = b) := by
  have diagonal := diagonal_pos positive
  have nonzero : ∀ i, A i i ≠ 0 := fun i => (diagonal i).ne'
  have lost := energy_gaussSeidelSweep symmetric nonzero b x
  constructor
  · have squares : 0 ≤ ∑ j, A j j * ((gaussSeidelSweep A b x).get j - x.get j) ^ 2 :=
      sum_nonneg fun j _ => mul_nonneg (diagonal j).le (sq_nonneg _)
    linarith
  · -- Nothing is lost exactly when nothing is moved.
    have unmoved : gaussSeidelSweep A b x = x ↔ A.mulVec x = b :=
      sweep_eq_self_iff .gaussSeidel nonzero
    rw [← unmoved, ← sum_moves_eq_zero_iff diagonal, ← lost, left_eq_add, div_eq_zero_iff,
      or_iff_left two_ne_zero]

theorem form_tridiagonal (v : Fin 3 → ℚ) : v ⬝ᵥ Matrix.of (tridiagonal ℚ).entry *ᵥ v =
    3 * v 0 ^ 2 + 2 * v 1 ^ 2 + 3 * v 2 ^ 2 + (v 0 - v 1) ^ 2 + (v 1 - v 2) ^ 2 := by
  simp [tridiagonal, dotProduct, mulVec, Fin.sum_univ_three]
  ring

/-- The first sweep of a system lowers the energy, for the zero vector does not solve it. -/
theorem energy_descends_tridiagonal :
    (∀ i j, tridiagonal ℚ i j = tridiagonal ℚ j i) ∧
    (∀ v : Fin 3 → ℚ, v ≠ 0 → 0 < v ⬝ᵥ Matrix.of (tridiagonal ℚ).entry *ᵥ v) ∧
    energy (tridiagonal ℚ) #v[3, 2, 3].get
        (gaussSeidelSweep (tridiagonal ℚ) #v[3, 2, 3] #v[0, 0, 0]).get <
      energy (tridiagonal ℚ) #v[3, 2, 3].get #v[0, 0, 0].get := by
  have symmetric : ∀ i j, tridiagonal ℚ i j = tridiagonal ℚ j i := by decide +kernel
  have positive : ∀ v : Fin 3 → ℚ, v ≠ 0 → 0 < v ⬝ᵥ Matrix.of (tridiagonal ℚ).entry *ᵥ v := by
    intro v nonzero
    rw [form_tridiagonal]
    -- One of the first three squares is not zero.
    obtain ⟨i, hi : v i ≠ 0⟩ := Function.ne_iff.mp nonzero
    obtain rfl | rfl | rfl : i = 0 ∨ i = 1 ∨ i = 2 := by omega
    · positivity
    · positivity
    · positivity
  obtain ⟨le, same⟩ := energy_descends (tridiagonal ℚ) symmetric positive #v[3, 2, 3] #v[0, 0, 0]
  refine ⟨symmetric, positive, lt_of_le_of_ne le fun equal => ?_⟩
  exact absurd (same.mp equal) (by decide +kernel)

end EquationSolver.Linear
