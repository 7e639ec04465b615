import EquationSolver.Linear.Solve
import EquationSolver.Proofs.Linear.Cholesky
import EquationSolver.Proofs.Linear.Factorization
import Mathlib.Analysis.Real.Sqrt

/-!
# The direct methods in exact arithmetic

Over an ordered field a direct method that succeeds has found the only solution of its system. The
factorization of a symmetric matrix asks for more: the matrix has to be symmetric without tolerance,
and square roots have to be exact.

## Main definitions

* `LinearSystem.Suits`: what a direct method asks of a system

## Main results

* `solve_direct_exact`: a direct method that succeeds reports the only solution
-/

namespace EquationSolver.Linear

/-! ## Success -/

section

variable {α : Type} [Add α] [Sub α] [Mul α] [Div α] [Zero α] [One α] [LE α] [DecidableLE α] [LT α]
  [DecidableLT α] [OfScientific α] [Scalar α] [SquareRoot α] {n : Nat}

/-- A direct method that succeeds reports what it found. -/
theorem report_direct_eq_success_iff {s : LinearSystem α n} {m : DirectMethod}
    {params : Option (StationaryParams α)} {withSteps : Bool} :
    ((s.solve (.direct m) params).report withSteps).status = .success ↔
      ∃ x, s.solveDirect m = .ok x ∧
        ((s.solve (.direct m) params).report withSteps).solution = x.toList := by
  rcases solved : s.solveDirect m with (cause | cause) | x
  · simp [LinearSystem.solve, solved, Answer.report]
  · simp [LinearSystem.solve, solved, Answer.report]
  · simp [LinearSystem.solve, solved, Answer.report]

end

/-! ## Exactness -/

variable {K : Type} [Field K] [LinearOrder K] [IsStrictOrderedRing K] [SquareRoot K] {n : Nat}

/-- What a method asks of a system so that exact arithmetic makes its solution exact. -/
def LinearSystem.Suits (s : LinearSystem K n) : DirectMethod → Prop
  | .gauss _ | .lu => True
  | .cholesky => (∀ i j, s.matrix i j = s.matrix j i) ∧ ExactRoots K

/-- What a direct method finds is the only solution. -/
theorem solveDirect_exact {s : LinearSystem K n} {m : DirectMethod} {x : Vector K n}
    (suits : s.Suits m) (h : s.solveDirect m = .ok x) (y : Vector K n) :
    s.matrix.mulVec y = s.rhs ↔ y = x := by
  rw [mulVec_eq_iff_solves, ← get_injective.eq_iff]
  cases m with
  | gauss strategy => exact gaussSolve_exact (mapError_eq_ok_iff.mp h)
  | lu => exact luSolve_exact (mapError_eq_ok_iff.mp h)
  | cholesky => exact choleskySolve_exact suits.2 suits.1 (mapError_eq_ok_iff.mp h)

/-- **A direct method that succeeds** reports a solution of its system, and no other vector is one.
Every other direct method that succeeds on the system reports the same vector. -/
theorem solve_direct_exact (s : LinearSystem K n) (m : DirectMethod)
    (params : Option (StationaryParams K)) (withSteps : Bool) (suits : s.Suits m)
    (success : ((s.solve (.direct m) params).report withSteps).status = .success) :
    ∃ x : Vector K n,
      ((s.solve (.direct m) params).report withSteps).solution = x.toList ∧
      (∀ y, s.matrix.mulVec y = s.rhs ↔ y = x) ∧
      ∀ m' params' withSteps', s.Suits m' →
        ((s.solve (.direct m') params').report withSteps').status = .success →
        ((s.solve (.direct m') params').report withSteps').solution = x.toList := by
  obtain ⟨x, solved, reported⟩ := report_direct_eq_success_iff.mp success
  refine ⟨x, reported, solveDirect_exact suits solved, fun m' params' withSteps' suits' ok => ?_⟩
  obtain ⟨x', solved', reported'⟩ := report_direct_eq_success_iff.mp ok
  have same : x' = x := (solveDirect_exact suits solved x').mp
    ((solveDirect_exact suits' solved' x').mpr rfl)
  rw [reported', same]

/-! ## Real numbers -/

/-- The square root of a real number. -/
noncomputable instance realSquareRoot : SquareRoot ℝ := ⟨Real.sqrt⟩

theorem exactRoots_real : ExactRoots ℝ := fun _ h => Real.mul_self_sqrt h.le

/-- The system `x + y = 1`, `x + 2 y = 3`. -/
noncomputable def symmetricSystem : LinearSystem ℝ 2 where
  matrix := .of fun i j => if i = 1 ∧ j = 1 then 2 else 1
  rhs := .ofFn fun i => if i = 1 then 3 else 1

theorem symmetricSystem_symmetric (i j : Fin 2) :
    symmetricSystem.matrix i j = symmetricSystem.matrix j i := by
  simp [symmetricSystem, and_comm]

/-- The factor of the matrix is found, and its diagonal is no obstacle. -/
theorem cholesky_symmetricSystem :
    ∃ L, cholesky symmetricSystem.matrix = .ok L ∧ ∀ i, ¬ IsTiny (L i i) := by
  have symmetric := isSymmetric_of_symmetric symmetricSystem_symmetric
  have positive : ¬ (1 : ℝ) ≤ 1e-10 := by norm_num
  have notTiny : (1e-12 : ℝ) ≤ 1 := by norm_num
  have root : squareRoot (1 : ℝ) = 1 := Real.sqrt_one
  have rest : (2 : ℝ) - 1 = 1 := by norm_num
  rw [cholesky, if_pos symmetric]
  simp [stages, choleskyRow, choleskyStage, choleskyEntry, symmetricSystem, sumWhere_eq,
    Except.map, Dense.setEntry_apply, symmetryTolerance, IsTiny, modulus, positive,
    notTiny.not_gt, root, rest, notTiny]

theorem solveDirect_symmetricSystem : ∃ x, symmetricSystem.solveDirect .cholesky = .ok x := by
  obtain ⟨L, factored, diagonal⟩ := cholesky_symmetricSystem
  obtain ⟨-, x, -, -, solved⟩ := exists_choleskySolve factored diagonal symmetricSystem.rhs
  exact ⟨x, mapError_eq_ok_iff.mpr solved⟩

/-- The real solution of a symmetric system from the factorization of its matrix. -/
theorem solve_direct_exact_symmetricSystem : symmetricSystem.Suits .cholesky ∧
    ((symmetricSystem.solve (.direct .cholesky) none).report false).status = .success ∧
    ((symmetricSystem.solve (.direct .cholesky) none).report false).solution = [-1, 2] := by
  have suits : symmetricSystem.Suits .cholesky := ⟨symmetricSystem_symmetric, exactRoots_real⟩
  have success : ((symmetricSystem.solve (.direct .cholesky) none).report false).status =
      .success := by
    obtain ⟨x, solved⟩ := solveDirect_symmetricSystem
    simp [LinearSystem.solve, solved, Answer.report]
  obtain ⟨x, reported, only, -⟩ :=
    solve_direct_exact symmetricSystem .cholesky none false suits success
  have solves : symmetricSystem.matrix.mulVec #v[-1, 2] = symmetricSystem.rhs := by
    refine mulVec_eq_iff_solves.mpr fun i => ?_
    have entries : (#v[-1, 2] : Vector ℝ 2).get 0 = -1 ∧ (#v[-1, 2] : Vector ℝ 2).get 1 = 2 :=
      ⟨rfl, rfl⟩
    rw [Fin.sum_univ_two, entries.1, entries.2]
    by_cases second : i = 1
    · norm_num [symmetricSystem, second]
    · norm_num [symmetricSystem, second]
  rw [reported, ← (only _).mp solves]
  exact ⟨suits, success, rfl⟩

end EquationSolver.Linear
