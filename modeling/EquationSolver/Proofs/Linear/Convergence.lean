import EquationSolver.Proofs.Linear.Direct
import EquationSolver.Proofs.Linear.Dominance
import EquationSolver.Proofs.Linear.FirstTerminal
import EquationSolver.Proofs.Linear.Splitting
import Mathlib.Analysis.Normed.Ring.Lemmas
import Mathlib.Analysis.SpecificLimits.Basic

/-!
# Convergence on diagonally dominant systems

Where the diagonal of every row outweighs the rest of it, a sweep brings a vector closer to the
solution, in the largest of its errors, by the ratio of the rest to the diagonal. Each row holds of
the solution, so the error of a component is made up of the errors of the components that it was
computed from. Those that still have their old values have the old errors. Those that have their new
values were computed before, and their errors have already become smaller. The order in which a
sweep computes its components is what the induction is on, and nothing else tells the two sweeps
apart.

The iterates of a run begin with the zero vector, whose error is the size of the solution. They
approach the solution, so none is more than twice as large, and both metrics of the stopping test go
to zero. A run therefore succeeds as soon as its budget reaches a metric below the tolerance, if a
vector of twice that size does not count as diverging.

## Main definitions

* `dominanceRatio`: the largest ratio of the rest of a row to its diagonal entry

## Main results

* `abs_sweep_sub_le`: the errors after a sweep
* `norm_sweepIterate_sub_le`: the error of an iterate
* `not_divergesAt`, `tendsto_metricAt`: no iterate diverges, and the metrics go to zero
* `sweeps_converge`: the sweeps contract, and the runs succeed
-/

namespace EquationSolver.Linear

open Finset Filter Topology

variable {n : Nat}

/-! ## One sweep -/

section

variable {K : Type} [Field K] {A : Dense K n n} {b x z : Vector K n}

/-- The error of a component comes from the errors of those that it was computed from. -/
theorem mul_sweep_sub (m : StationaryMethod) (solves : A.mulVec z = b) {i : Fin n}
    (diagonal : A i i ≠ 0) :
    A i i * ((m.sweep A b x).get i - z.get i) =
      -(∑ j with m.OldFor j i, A i j * (x.get j - z.get j) +
        ∑ j with m.NewFor j i, A i j * ((m.sweep A b x).get j - z.get j)) := by
  have row : A i i * z.get i + (∑ j with m.OldFor j i, A i j * z.get j +
      ∑ j with m.NewFor j i, A i j * z.get j) = b.get i := by
    rw [← m.sum_row i fun j => A i j * z.get j]
    exact mulVec_eq_iff_solves.mp solves i
  have component := get_sweep m A b x i
  rw [eq_div_iff diagonal, mul_comm] at component
  simp only [mul_sub, sum_sub_distrib]
  rw [component, ← row]
  ring

variable [LinearOrder K] [IsStrictOrderedRing K] {ρ δ : K}

/-- Errors that are added up with factors. -/
theorem abs_sum_mul_le {s : Finset (Fin n)} {a e : Fin n → K} (small : ∀ j ∈ s, |e j| ≤ δ) :
    |∑ j ∈ s, a j * e j| ≤ (∑ j ∈ s, |a j|) * δ := by
  rw [sum_mul]
  refine (abs_sum_le_sum_abs _ _).trans (sum_le_sum fun j hj => ?_)
  rw [abs_mul]
  exact mul_le_mul_of_nonneg_left (small j hj) (abs_nonneg _)

/-- In a row whose diagonal outweighs the rest, errors become smaller by the ratio of the two. -/
theorem abs_sweep_sub_le (m : StationaryMethod) (solves : A.mulVec z = b)
    (diagonal : ∀ i, A i i ≠ 0) (dominant : ∀ i, ∑ j with j ≠ i, |A i j| ≤ ρ * |A i i|)
    (ratio : ρ ≤ 1) (close : ∀ j, |x.get j - z.get j| ≤ δ) (i : Fin n) :
    |(m.sweep A b x).get i - z.get i| ≤ ρ * δ := by
  have nonneg : 0 ≤ δ := (abs_nonneg _).trans (close i)
  -- The components that a component is computed from come before it, so their errors are known.
  induction i using m.wellFounded_newFor.induction with
  | _ i ih =>
    have old : |∑ j with m.OldFor j i, A i j * (x.get j - z.get j)| ≤
        (∑ j with m.OldFor j i, |A i j|) * δ := abs_sum_mul_le fun j _ => close j
    have new : |∑ j with m.NewFor j i, A i j * ((m.sweep A b x).get j - z.get j)| ≤
        (∑ j with m.NewFor j i, |A i j|) * δ :=
      abs_sum_mul_le fun j hj =>
        (ih j (mem_filter.mp hj).2).trans (mul_le_of_le_one_left nonneg ratio)
    have bound : |A i i| * |(m.sweep A b x).get i - z.get i| ≤ |A i i| * (ρ * δ) :=
      calc |A i i| * |(m.sweep A b x).get i - z.get i|
        _ = |∑ j with m.OldFor j i, A i j * (x.get j - z.get j) +
            ∑ j with m.NewFor j i, A i j * ((m.sweep A b x).get j - z.get j)| := by
          rw [← abs_mul, mul_sweep_sub m solves (diagonal i), abs_neg]
        _ ≤ (∑ j with m.OldFor j i, |A i j|) * δ + (∑ j with m.NewFor j i, |A i j|) * δ :=
          (abs_add_le _ _).trans (add_le_add old new)
        _ = (∑ j with j ≠ i, |A i j|) * δ := by rw [← add_mul, ← m.sum_ne]
        _ ≤ ρ * |A i i| * δ := mul_le_mul_of_nonneg_right (dominant i) nonneg
        _ = |A i i| * (ρ * δ) := by ring
    exact le_of_mul_le_mul_left bound (abs_pos.mpr (diagonal i))

end

/-! ## The ratio of a matrix -/

section

variable {A : Dense ℝ n n}

/-- The largest ratio, over all rows, of the other entries together to the diagonal entry. -/
noncomputable def dominanceRatio (A : Dense ℝ n n) : ℝ :=
  ⨆ i, (∑ j with j ≠ i, |A i j|) / |A i i|

theorem dominanceRatio_nonneg (A : Dense ℝ n n) : 0 ≤ dominanceRatio A :=
  Real.iSup_nonneg fun _ => div_nonneg (sum_nonneg fun _ _ => abs_nonneg _) (abs_nonneg _)

theorem sum_abs_le_dominanceRatio {i : Fin n} (diagonal : A i i ≠ 0) :
    ∑ j with j ≠ i, |A i j| ≤ dominanceRatio A * |A i i| := by
  rw [← div_le_iff₀ (abs_pos.mpr diagonal)]
  exact le_ciSup (f := fun i => (∑ j with j ≠ i, |A i j|) / |A i i|)
    (Set.finite_range _).bddAbove i

/-- The ratio is below one where every row has a margin. -/
theorem dominanceRatio_lt_one (margins : ∀ i, 0 < margin (A i) i) : dominanceRatio A < 1 := by
  rcases isEmpty_or_nonempty (Fin n) with none | some
  · rw [dominanceRatio, Real.iSup_of_isEmpty]
    exact zero_lt_one
  · obtain ⟨i, largest⟩ := exists_eq_ciSup_of_finite (f := fun i =>
      (∑ j with j ≠ i, |A i j|) / |A i i|)
    have large : 0 < |A i i| := (margins i).trans_le (margin_le_modulus _ i)
    rw [dominanceRatio, ← largest, div_lt_one large]
    exact sub_pos.mp (margins i)

end

/-! ## The length of a vector -/

/-- The length of a vector against its largest entry. -/
theorem norm_le_sqrt_mul (v : Vector ℝ n) : norm v ≤ √n * ‖v.get‖ := by
  refine Real.sqrt_le_iff.mpr ⟨by positivity, ?_⟩
  calc sum (fun i => v.get i * v.get i)
    _ = ∑ i, |v.get i| ^ 2 := by
      rw [sum_eq]
      exact sum_congr rfl fun i _ => by rw [sq_abs, sq]
    _ ≤ ∑ _ : Fin n, ‖v.get‖ ^ 2 :=
      sum_le_sum fun i _ => pow_le_pow_left₀ (abs_nonneg _) (norm_le_pi_norm v.get i) 2
    _ = (√n * ‖v.get‖) ^ 2 := by
      rw [sum_const, card_univ, Fintype.card_fin, nsmul_eq_mul, mul_pow, Real.sq_sqrt n.cast_nonneg]

/-- The lengths of vectors go to zero where their largest entries do. -/
theorem tendsto_norm {v : ℕ → Vector ℝ n} (vanish : Tendsto (fun k => (v k).get) atTop (𝓝 0)) :
    Tendsto (fun k => norm (v k)) atTop (𝓝 0) := by
  refine squeeze_zero (fun _ => Real.sqrt_nonneg _) (fun k => norm_le_sqrt_mul (v k)) ?_
  simpa using vanish.norm.const_mul √n

/-! ## The iterates -/

section

variable {A : Dense ℝ n n} {b x z : Vector ℝ n} (m : StationaryMethod) (rule : StopRule)

/-- A sweep brings a vector closer to the solution by the ratio of the matrix. -/
theorem norm_sweep_sub_le (solves : A.mulVec z = b) (diagonal : ∀ i, A i i ≠ 0)
    (dominant : dominanceRatio A ≤ 1) :
    ‖(m.sweep A b x).get - z.get‖ ≤ dominanceRatio A * ‖x.get - z.get‖ := by
  refine (pi_norm_le_iff_of_nonneg (mul_nonneg (dominanceRatio_nonneg A) (norm_nonneg _))).mpr ?_
  exact abs_sweep_sub_le m solves diagonal (fun i => sum_abs_le_dominanceRatio (diagonal i))
    dominant (norm_le_pi_norm (x.get - z.get))

variable (solves : A.mulVec z = b) (diagonal : ∀ i, A i i ≠ 0) (dominant : dominanceRatio A < 1)
include solves diagonal dominant

/-- The error of an iterate is what is left of the error of the zero vector. -/
theorem norm_sweepIterate_sub_le (k : ℕ) :
    ‖(sweepIterate m.sweep A b k).get - z.get‖ ≤ dominanceRatio A ^ k * ‖z.get‖ := by
  induction k with
  | zero =>
    have start : (sweepIterate m.sweep A b 0).get = 0 := by
      funext i
      exact Vector.getElem_replicate i.isLt
    rw [start, zero_sub, norm_neg, pow_zero, one_mul]
  | succ k ih =>
    rw [sweepIterate_succ, pow_succ', mul_assoc]
    exact (norm_sweep_sub_le m solves diagonal dominant.le).trans
      (mul_le_mul_of_nonneg_left ih (dominanceRatio_nonneg A))

theorem tendsto_sweepIterate :
    Tendsto (fun k => (sweepIterate m.sweep A b k).get) atTop (𝓝 z.get) := by
  rw [tendsto_iff_norm_sub_tendsto_zero]
  refine squeeze_zero (fun _ => norm_nonneg _)
    (norm_sweepIterate_sub_le m solves diagonal dominant) ?_
  rw [← zero_mul ‖z.get‖]
  exact (tendsto_pow_atTop_nhds_zero_of_lt_one (dominanceRatio_nonneg A) dominant).mul_const _

/-- No iterate is more than twice as large as the solution. -/
theorem norm_sweepIterate_le (k : ℕ) :
    norm (sweepIterate m.sweep A b k) ≤ 2 * √n * ‖z.get‖ := by
  have error : ‖(sweepIterate m.sweep A b k).get - z.get‖ ≤ ‖z.get‖ :=
    (norm_sweepIterate_sub_le m solves diagonal dominant k).trans
      (mul_le_of_le_one_left (norm_nonneg _) (pow_le_one₀ (dominanceRatio_nonneg A) dominant.le))
  calc norm (sweepIterate m.sweep A b k)
    _ ≤ √n * ‖(sweepIterate m.sweep A b k).get‖ := norm_le_sqrt_mul _
    _ ≤ √n * (2 * ‖z.get‖) := by
      gcongr
      linarith [norm_le_norm_sub_add (sweepIterate m.sweep A b k).get z.get]
    _ = 2 * √n * ‖z.get‖ := by ring

/-- No iterate diverges where twice the solution is not too large. -/
theorem not_divergesAt (small : 2 * √n * ‖z.get‖ ≤ 1e12) (k : ℕ) :
    ¬ DivergesAt m.sweep A b rule k := by
  rintro (infinite | ⟨i, infinite⟩ | large)
  · cases infinite
  · cases infinite
  · exact absurd large ((norm_sweepIterate_le m solves diagonal dominant k).trans small).not_gt

/-- Both metrics go to zero. -/
theorem tendsto_metricAt : Tendsto (metricAt m.sweep A b rule) atTop (𝓝 0) := by
  have iterates := tendsto_sweepIterate m solves diagonal dominant
  cases rule with
  | residual =>
    refine tendsto_norm (tendsto_pi_nhds.mpr fun i => ?_)
    have entries (j : Fin n) := (tendsto_pi_nhds.mp iterates j).const_mul (A i j)
    have product := tendsto_finsetSum univ fun j _ => entries j
    simp only [get_difference, Dense.get_mulVec, sum_eq]
    have row : ∑ j, A i j * z.get j = b.get i := mulVec_eq_iff_solves.mp solves i
    rw [row] at product
    simpa using product.sub_const (b.get i)
  | change =>
    refine tendsto_norm ?_
    have before := iterates.comp (tendsto_sub_atTop_nat 1)
    have moves := iterates.sub before
    rw [sub_self] at moves
    refine moves.congr fun k => ?_
    funext i
    simp

/-- A run whose budget is large enough converges. -/
theorem exists_converged {tol : ℝ} (positive : 0 < tol) (small : 2 * √n * ‖z.get‖ ≤ 1e12) :
    ∃ N : ℕ, 1 ≤ N ∧ ∀ budget ≥ N,
      (stationary m.sweep A b rule tol budget).outcome.ending = .converged := by
  have below := (tendsto_metricAt m rule solves diagonal dominant).eventually_lt_const positive
  obtain ⟨k, below, counted⟩ := (below.and (eventually_ge_atTop 1)).exists
  obtain ⟨N, -, first⟩ := exists_isFirstTerminal counted (.inr below)
  refine ⟨N, first.pos, fun budget reached => ?_⟩
  rw [stationary_of_isFirstTerminal first reached,
    if_neg (not_divergesAt m rule solves diagonal dominant small N)]

end

/-! ## The runs -/

/-- A method runs on a system without a tiny diagonal entry when its parameters are usable. -/
theorem solveStationary_eq_ran {s : LinearSystem ℝ n} {tol : ℝ} {budget : ℕ} (m : StationaryMethod)
    (rule : StopRule) (diagonal : ∀ i, ¬ IsTiny (s.matrix i i)) (positive : 0 < tol)
    (counted : 1 ≤ budget) :
    s.solveStationary m (some ⟨tol, budget, .ok rule⟩) =
      .ran m (stationary m.sweep s.matrix s.rhs rule tol budget) := by
  rcases solveStationary_cases s m (some ⟨tol, budget, .ok rule⟩) with
    ⟨unusable, -⟩ | ⟨-, p, rule', budget', given, stop, same, -, answer⟩
  · cases unusable with
    | tolerance refused => exact absurd positive refused
    | budget refused => exact absurd (Int.ofNat_le.mp refused) (Nat.not_le.mpr counted)
    | unknownStop refused => cases refused
    | tinyDiagonal tiny => exact absurd tiny (diagonal _)
  · cases given
    cases stop
    rw [answer, Int.ofNat_inj.mp same]

/-- **Convergence on diagonally dominant systems.** Where the diagonal counts as free of zeros and
the ratio of every row is below one, a sweep brings every vector closer to the solution by the
ratio of the matrix. If the solution is not too large, both methods succeed for every tolerance,
with either metric and with every budget from some number on. -/
theorem sweeps_converge (s : LinearSystem ℝ n) (diagonal : ∀ i, 1e-12 ≤ |s.matrix i i|)
    (dominant : dominanceRatio s.matrix < 1) (z : Vector ℝ n) (solves : s.matrix.mulVec z = s.rhs) :
    (∀ (m : StationaryMethod) (x : Vector ℝ n),
      ‖(m.sweep s.matrix s.rhs x).get - z.get‖ ≤
        dominanceRatio s.matrix * ‖x.get - z.get‖) ∧
    (2 * √n * ‖z.get‖ ≤ 1e12 → ∀ tol > 0, ∀ rule : StopRule, ∃ N : ℕ, ∀ m : StationaryMethod,
      ∀ budget : ℤ, N ≤ budget → ∀ withSteps,
        ((s.solveStationary m (some ⟨tol, budget, .ok rule⟩)).report withSteps).status =
          .success) := by
  have notTiny (i : Fin n) : ¬ IsTiny (s.matrix i i) := (diagonal i).not_gt
  have nonzero (i : Fin n) : s.matrix i i ≠ 0 := ne_zero_of_not_isTiny (notTiny i)
  refine ⟨fun m x => norm_sweep_sub_le m solves nonzero dominant.le, ?_⟩
  intro small tol positive rule
  have enough (m : StationaryMethod) :=
    exists_converged m rule solves nonzero dominant positive small
  obtain ⟨N, counted, jacobi⟩ := enough .jacobi
  obtain ⟨N', -, gaussSeidel⟩ := enough .gaussSeidel
  refine ⟨max N N', fun m budget reached withSteps => ?_⟩
  lift budget to ℕ using (Int.natCast_nonneg _).trans reached
  obtain ⟨large, large'⟩ := max_le_iff.mp (Int.ofNat_le.mp reached)
  rw [solveStationary_eq_ran m rule notTiny positive (counted.trans large)]
  refine SweepEnd.status_eq_success_iff.mpr ?_
  cases m with
  | jacobi => exact jacobi budget large
  | gaussSeidel => exact gaussSeidel budget large'

theorem margin_tridiagonal_pos (i : Fin 3) : 0 < margin (tridiagonal ℝ i) i := by
  have others : ∀ j ∈ univ.filter (· ≠ i), |tridiagonal ℝ i j| ≤ 1 := by
    intro j hj
    rw [tridiagonal, Dense.of_apply, if_neg (mem_filter.mp hj).2.symm]
    split <;> norm_num
  have rest : ∑ j with j ≠ i, |tridiagonal ℝ i j| ≤ 2 := by
    simpa [filter_ne'] using sum_le_card_nsmul _ _ 1 others
  have diagonal : |tridiagonal ℝ i i| = 4 := by norm_num [tridiagonal]
  rw [margin, diagonal]
  linarith

/-- The tridiagonal system that a vector of ones solves. -/
noncomputable def solvedByOnes : LinearSystem ℝ 3 where
  matrix := tridiagonal ℝ
  rhs := (tridiagonal ℝ).mulVec (.ofFn fun _ => 1)

theorem sweeps_converge_solvedByOnes :
    (∀ i, 1e-12 ≤ |solvedByOnes.matrix i i|) ∧ dominanceRatio solvedByOnes.matrix < 1 ∧
    solvedByOnes.matrix.mulVec (.ofFn fun _ => 1) = solvedByOnes.rhs ∧
    ∃ N : ℕ, ∀ m : StationaryMethod, ∀ budget : ℤ, N ≤ budget → ∀ withSteps,
      ((solvedByOnes.solveStationary m (some ⟨1e-9, budget, .ok .residual⟩)).report
        withSteps).status = .success := by
  have diagonal (i : Fin 3) : 1e-12 ≤ |solvedByOnes.matrix i i| := by
    norm_num [solvedByOnes, tridiagonal]
  have dominant : dominanceRatio solvedByOnes.matrix < 1 :=
    dominanceRatio_lt_one margin_tridiagonal_pos
  have ones : ‖(Vector.ofFn fun _ : Fin 3 => (1 : ℝ)).get‖ ≤ 1 :=
    (pi_norm_le_iff_of_nonneg zero_le_one).mpr fun i => by simp
  have root : √(3 : ℕ) ≤ 2 := Real.sqrt_le_iff.mpr ⟨by norm_num, by norm_num⟩
  have small : 2 * √(3 : ℕ) * ‖(Vector.ofFn fun _ : Fin 3 => (1 : ℝ)).get‖ ≤ 1e12 :=
    calc 2 * √(3 : ℕ) * ‖(Vector.ofFn fun _ : Fin 3 => (1 : ℝ)).get‖
      _ ≤ 2 * 2 * 1 := by gcongr
      _ ≤ 1e12 := by norm_num
  obtain ⟨-, runs⟩ := sweeps_converge solvedByOnes diagonal dominant _ rfl
  exact ⟨diagonal, dominant, rfl, runs small 1e-9 (by norm_num) .residual⟩

end EquationSolver.Linear
