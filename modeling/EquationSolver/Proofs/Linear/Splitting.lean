import EquationSolver.Linear.Solve
import EquationSolver.Proofs.Linear.Triangular
import Mathlib.Data.Matrix.Mul

/-!
# The splittings behind the sweeps

A sweep computes each component from its row of the system, with every other component at its old
or at its new value. The places of the matrix are split accordingly: at some of them the matrix is
applied to the new vector, at the others to the old one. A Jacobi sweep takes all other components
at their old values. A Gauss-Seidel sweep takes the components before at their new values, and it
may, because it writes every component once and reads it only afterwards.

The equations of a splitting are triangular in the new vector, so they have one solution. They hold
with the old vector in the place of the new one exactly when the old vector solves the system.

## Main definitions

* `StationaryMethod.NewFor`, `StationaryMethod.OldFor`: which values a component is computed from
* `Dense.part`: the entries of a matrix at some of its places
* `StationaryMethod.newPart`, `StationaryMethod.oldPart`: the splitting of a sweep

## Main results

* `get_gaussSeidelSweep`: a component of the sweep from the whole vector that it returns
* `get_sweep`: a component of either sweep in exact arithmetic
* `newPart_mulVec_eq_iff`, `sweep_eq_self_iff`: the equations of a sweep, and what it leaves alone
* `sweep_splitting`: the two splittings
-/

namespace EquationSolver.Linear

open Finset Matrix

variable {n : Nat}

/-! ## The values that a component is computed from -/

namespace StationaryMethod

/-- The component `j` has its new value when component `i` is computed. -/
def NewFor : StationaryMethod → Fin n → Fin n → Prop
  | jacobi, _, _ => False
  | gaussSeidel, j, i => j < i

/-- The component `j` still has its old value when component `i` is computed. -/
def OldFor (m : StationaryMethod) (j i : Fin n) : Prop := j ≠ i ∧ ¬ m.NewFor j i

instance (m : StationaryMethod) : DecidableRel (m.NewFor (n := n)) := fun j i =>
  match m with
  | jacobi => inferInstanceAs (Decidable False)
  | gaussSeidel => inferInstanceAs (Decidable (j < i))

instance (m : StationaryMethod) : DecidableRel (m.OldFor (n := n)) := fun _ _ =>
  inferInstanceAs (Decidable (_ ∧ _))

/-- No component waits for itself. -/
theorem wellFounded_newFor (m : StationaryMethod) : WellFounded (m.NewFor (n := n)) := by
  cases m with
  | jacobi => exact ⟨fun i => ⟨i, fun _ waits => waits.elim⟩⟩
  | gaussSeidel => exact wellFounded_lt

theorem NewFor.ne {m : StationaryMethod} {j i : Fin n} (h : m.NewFor j i) : j ≠ i := by
  rintro rfl
  exact m.wellFounded_newFor.irrefl.irrefl j h

theorem oldFor_gaussSeidel_iff {j i : Fin n} : gaussSeidel.OldFor j i ↔ i < j := by
  change j ≠ i ∧ ¬ j < i ↔ i < j
  omega

/-- All components but one, by the values they have. -/
theorem sum_ne {K : Type} [AddCommMonoid K] (m : StationaryMethod) (i : Fin n) (f : Fin n → K) :
    ∑ j with j ≠ i, f j = ∑ j with m.OldFor j i, f j + ∑ j with m.NewFor j i, f j := by
  rw [← sum_filter_add_sum_filter_not _ (m.NewFor · i), filter_filter, filter_filter, add_comm]
  congr 2
  ext j
  simp only [mem_filter, mem_univ, true_and]
  exact ⟨And.right, fun new => ⟨new.ne, new⟩⟩

/-- A sum over a row: the component itself, and the others by the values they have. -/
theorem sum_row {K : Type} [AddCommMonoid K] (m : StationaryMethod) (i : Fin n) (f : Fin n → K) :
    ∑ j, f j = f i + (∑ j with m.OldFor j i, f j + ∑ j with m.NewFor j i, f j) := by
  rw [← m.sum_ne, filter_ne', add_sum_erase univ f (mem_univ i)]

theorem sum_newFor_jacobi {K : Type} [AddCommMonoid K] (i : Fin n) (f : Fin n → K) :
    ∑ j with jacobi.NewFor j i, f j = 0 :=
  sum_eq_zero fun _ hj => (mem_filter.mp hj).2.elim

end StationaryMethod

/-! ## One component -/

/-- Every component of a Gauss-Seidel sweep, from the vector that the sweep returns in the end. -/
theorem get_gaussSeidelSweep {α : Type} [Add α] [Sub α] [Mul α] [Div α] [Zero α] (A : Dense α n n)
    (b x : Vector α n) (i : Fin n) :
    (gaussSeidelSweep A b x).get i = gaussSeidelEntry A b x (gaussSeidelSweep A b x) i := by
  apply get_foldl_setEntry (p := id) Function.injective_id (f := gaussSeidelEntry A b x)
  intro v w k same
  have before : sumWhere (· < k) (fun j => A k j * v.get j) =
      sumWhere (· < k) fun j => A k j * w.get j :=
    sumWhere_congr fun j hj => congrArg (A k j * ·) (same j hj)
  rw [gaussSeidelEntry, gaussSeidelEntry, before]

variable {K : Type} [Field K] (m : StationaryMethod) (A : Dense K n n)

/-- A component of a sweep: its row of the system is solved for it. -/
theorem get_sweep (b x : Vector K n) (i : Fin n) :
    (m.sweep A b x).get i = (b.get i - ∑ j with m.OldFor j i, A i j * x.get j -
      ∑ j with m.NewFor j i, A i j * (m.sweep A b x).get j) / A i i := by
  cases m with
  | jacobi =>
    -- The product less the diagonal term is the sum over all other components.
    rw [StationaryMethod.sum_newFor_jacobi, sub_zero, StationaryMethod.sweep, jacobiSweep,
      get_ofFn, Dense.get_mulVec, sum_eq, StationaryMethod.jacobi.sum_row i,
      StationaryMethod.sum_newFor_jacobi, add_zero, add_sub_cancel_left]
  | gaussSeidel =>
    have entry := get_gaussSeidelSweep A b x i
    rw [gaussSeidelEntry, sumWhere_eq, sumWhere_eq, add_comm, ← sub_sub] at entry
    simp only [StationaryMethod.oldFor_gaussSeidel_iff]
    exact entry

/-! ## Parts of a matrix -/

/-- The entries of a matrix at the places with a property, and zeros at the others. -/
def Dense.part (A : Dense K n n) (p : Fin n → Fin n → Prop) [DecidableRel p] :
    Matrix (Fin n) (Fin n) K :=
  .of fun i j => if p i j then A i j else 0

section

variable {A} {p q : Fin n → Fin n → Prop} [DecidableRel p] [DecidableRel q]

theorem Dense.part_mulVec (x : Fin n → K) (i : Fin n) :
    (A.part p *ᵥ x) i = ∑ j with p i j, A i j * x j := by
  simp only [Dense.part, Matrix.mulVec, dotProduct, Matrix.of_apply, ite_mul, zero_mul, sum_filter]

/-- The diagonal together with the entries that come before it in an order. -/
theorem Dense.part_diagonal_mulVec {before : Fin n → Fin n → Prop} [DecidableRel before]
    (irrefl : ∀ i, ¬ before i i) (x : Fin n → K) (i : Fin n) :
    (A.part (fun i j => j = i ∨ before j i) *ᵥ x) i =
      A i i * x i + ∑ j with before j i, A i j * x j := by
  have apart : i ∉ univ.filter (before · i) := fun hi => irrefl i (mem_filter.mp hi).2
  rw [Dense.part_mulVec, filter_or, filter_eq', if_pos (mem_univ i), ← insert_eq, sum_insert apart]

/-- The equations of a triangle are those of the system with zeros at the other places. -/
theorem Dense.part_mulVec_eq_iff {before : Fin n → Fin n → Prop} [DecidableRel before]
    (irrefl : ∀ i, ¬ before i i) {b x : Fin n → K} :
    A.part (fun i j => j = i ∨ before j i) *ᵥ x = b ↔ SolvesPart before A b x := by
  rw [funext_iff]
  simp only [Dense.part_diagonal_mulVec irrefl]
  rfl

theorem Dense.part_congr (same : ∀ i j, p i j ↔ q i j) : A.part p = A.part q := by
  ext i j
  simp only [Dense.part, Matrix.of_apply, same]

/-- Parts at different places add up to the part at both. -/
theorem Dense.part_add_part (apart : ∀ i j, p i j → ¬ q i j) :
    A.part p + A.part q = A.part fun i j => p i j ∨ q i j := by
  ext i j
  by_cases hp : p i j
  · simp [Dense.part, hp, apart i j hp]
  · simp [Dense.part, hp]

theorem Dense.part_eq_of (everywhere : ∀ i j, p i j) : A.part p = .of A.entry := by
  ext i j
  simp [Dense.part, everywhere]

end

namespace Dense

/-- The diagonal of a matrix. -/
def diagonalPart : Matrix (Fin n) (Fin n) K := A.part fun i j => j = i

/-- What is strictly below the diagonal. -/
def lowerPart : Matrix (Fin n) (Fin n) K := A.part fun i j => j < i

/-- What is strictly above the diagonal. -/
def upperPart : Matrix (Fin n) (Fin n) K := A.part fun i j => i < j

end Dense

namespace StationaryMethod

/-- What a sweep applies to the new vector. -/
def newPart : Matrix (Fin n) (Fin n) K := A.part fun i j => j = i ∨ m.NewFor j i

/-- What a sweep applies to the old vector. -/
def oldPart : Matrix (Fin n) (Fin n) K := A.part fun i j => m.OldFor j i

theorem newPart_add_oldPart : m.newPart A + m.oldPart A = .of A.entry := by
  rw [newPart, oldPart, Dense.part_add_part]
  · refine Dense.part_eq_of fun i j => ?_
    by_cases new : j = i ∨ m.NewFor j i
    · exact .inl new
    · exact .inr (not_or.mp new)
  · intro i j new old
    exact new.elim old.1 old.2

theorem newPart_jacobi : jacobi.newPart A = A.diagonalPart :=
  Dense.part_congr fun _ _ => or_iff_left id

theorem oldPart_jacobi : jacobi.oldPart A = A.lowerPart + A.upperPart := by
  rw [Dense.lowerPart, Dense.upperPart, Dense.part_add_part fun _ _ => lt_asymm]
  exact Dense.part_congr fun i j => (and_iff_left id).trans lt_or_lt_iff_ne.symm

theorem newPart_gaussSeidel : gaussSeidel.newPart A = A.diagonalPart + A.lowerPart := by
  rw [Dense.diagonalPart, Dense.lowerPart, Dense.part_add_part]
  · rfl
  · intro i j same
    exact same.not_lt

theorem oldPart_gaussSeidel : gaussSeidel.oldPart A = A.upperPart :=
  Dense.part_congr fun _ _ => oldFor_gaussSeidel_iff

/-- No component has its new value before it is computed. -/
theorem not_newFor_self (i : Fin n) : ¬ m.NewFor i i := fun new => new.ne rfl

end StationaryMethod

/-! ## The equations of a splitting -/

section

variable {A} (diagonal : ∀ i, A i i ≠ 0)
include diagonal

/-- The equations of a splitting have one solution, and the sweep finds it. -/
theorem newPart_mulVec_eq_iff {b x y : Vector K n} :
    m.newPart A *ᵥ y.get = b.get - m.oldPart A *ᵥ x.get ↔ y = m.sweep A b x := by
  have triangle : SolvesPart m.NewFor A (b.get - m.oldPart A *ᵥ x.get) y.get ↔
      y.get = (m.sweep A b x).get := by
    apply solvesPart_iff_eq m.wellFounded_newFor diagonal
    intro i
    rw [Pi.sub_apply, StationaryMethod.oldPart, Dense.part_mulVec]
    exact get_sweep m A b x i
  rw [← get_injective.eq_iff, ← triangle]
  exact Dense.part_mulVec_eq_iff m.not_newFor_self

/-- A sweep leaves the solutions of the system unchanged, and no other vector. -/
theorem sweep_eq_self_iff {b x : Vector K n} : m.sweep A b x = x ↔ A.mulVec x = b := by
  rw [eq_comm, ← newPart_mulVec_eq_iff m diagonal, eq_sub_iff_add_eq, ← add_mulVec,
    m.newPart_add_oldPart, mulVec_eq_iff_solves, funext_iff]
  rfl

/-- **The sweeps solve the equations of their splittings.** Take a matrix without a zero on its
diagonal as the sum of its diagonal and of what is below and above it. A Jacobi sweep returns the
only vector to which the diagonal applies as the other two parts are taken, at the old vector, from
the right-hand side; a Gauss-Seidel sweep returns the only one for the diagonal with the part below
it. Either sweep leaves a vector unchanged exactly when the vector solves the system. -/
theorem sweep_splitting (b x : Vector K n) :
    A.diagonalPart + A.lowerPart + A.upperPart = .of A.entry ∧
      (∀ y : Vector K n, A.diagonalPart *ᵥ y.get =
        b.get - (A.lowerPart + A.upperPart) *ᵥ x.get ↔ y = jacobiSweep A b x) ∧
      (∀ y : Vector K n, (A.diagonalPart + A.lowerPart) *ᵥ y.get =
        b.get - A.upperPart *ᵥ x.get ↔ y = gaussSeidelSweep A b x) ∧
      (jacobiSweep A b x = x ↔ A.mulVec x = b) ∧
      (gaussSeidelSweep A b x = x ↔ A.mulVec x = b) := by
  rw [← StationaryMethod.newPart_gaussSeidel, ← StationaryMethod.oldPart_jacobi,
    ← StationaryMethod.oldPart_gaussSeidel, ← StationaryMethod.newPart_jacobi]
  exact ⟨StationaryMethod.gaussSeidel.newPart_add_oldPart A,
    fun y => newPart_mulVec_eq_iff .jacobi diagonal,
    fun y => newPart_mulVec_eq_iff .gaussSeidel diagonal,
    sweep_eq_self_iff .jacobi diagonal, sweep_eq_self_iff .gaussSeidel diagonal⟩

end

/-- The matrix with `4` on its diagonal and `-1` beside it. -/
def tridiagonal (K : Type) [Field K] : Dense K 3 3 :=
  .of fun i j => if i = j then 4 else if (i : Nat) = j + 1 ∨ (j : Nat) = i + 1 then -1 else 0

/-- From the zero vector the second and third component of a Gauss-Seidel sweep see those before. -/
theorem sweep_splitting_tridiagonal : (∀ i, tridiagonal ℚ i i ≠ 0) ∧
    jacobiSweep (tridiagonal ℚ) #v[3, 2, 3] #v[0, 0, 0] = #v[3 / 4, 2 / 4, 3 / 4] ∧
    gaussSeidelSweep (tridiagonal ℚ) #v[3, 2, 3] #v[0, 0, 0] = #v[3 / 4, 11 / 16, 59 / 64] ∧
    gaussSeidelSweep (tridiagonal ℚ) #v[3, 2, 3] #v[1, 1, 1] = #v[1, 1, 1] := by
  have diagonal : ∀ i, tridiagonal ℚ i i ≠ 0 := by decide +kernel
  obtain ⟨-, jacobi, gaussSeidel, -⟩ := sweep_splitting diagonal #v[3, 2, 3] #v[0, 0, 0]
  obtain ⟨-, -, -, -, unchanged⟩ := sweep_splitting diagonal #v[3, 2, 3] #v[1, 1, 1]
  refine ⟨diagonal, ?_, ?_, ?_⟩
  · exact ((jacobi #v[3 / 4, 2 / 4, 3 / 4]).mp (by decide +kernel)).symm
  · exact ((gaussSeidel #v[3 / 4, 11 / 16, 59 / 64]).mp (by decide +kernel)).symm
  · exact unchanged.mpr (by decide +kernel)

end EquationSolver.Linear
