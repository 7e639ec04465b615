import EquationSolver.Proofs.Double.Range
import EquationSolver.Proofs.Double.Size
import EquationSolver.Proofs.Linear.Contract
import EquationSolver.Proofs.Linear.Direct

/-!
# Solutions in the range of doubles

A stationary method tests its iterates, so that what it calls a solution is finite. A direct method
tests nothing but its pivots. It ends with the substitution of an upper triangular system, and its
solution is finite if this substitution reads finite numbers and none of its operations leaves the
range of doubles. An infinite or undefined entry on the way is not lost, except for an infinite
pivot, which makes its unknown zero.

## Main definitions

* `AddsUp`: a sum of doubles stays in range on the way
* `RowInRange`: one row of a substitution does
* `LinearSystem.EndsIn`: the last substitution of a direct method
* `Report.IsFinite`: a solution that is reported is finite

## Main results

* `isFinite_sumWhere_iff`, `isFinite_row_iff`: when a sum, and when an unknown is finite
* `isFinite_request_iff`: a solution is finite unless the last substitution leaves the range
-/

namespace EquationSolver.Linear

open Double

variable {n : Nat}

/-! ## Sums -/

/-- Nothing that is reached when some terms are added one after the other leaves the range. -/
def AddsUp : Float → List Float → Prop
  | _, [] => True
  | s, t :: ts => |number s + number t| < overflow ∧ AddsUp (s + t) ts

theorem isFinite_foldl_add_iff (ts : List Float) (s : Float) :
    (ts.foldl (· + ·) s).isFinite = true ↔
      s.isFinite = true ∧ (∀ t ∈ ts, t.isFinite = true) ∧ AddsUp s ts := by
  induction ts generalizing s with
  | nil => simp [AddsUp]
  | cons t ts ih =>
    rw [List.foldl_cons, ih, isFinite_add_iff, List.forall_mem_cons, AddsUp]
    tauto

/-- The terms of a sum over the indices with a property, in order. -/
def terms (p : Fin n → Prop) [DecidablePred p] (f : Fin n → Float) : List Float :=
  ((List.finRange n).filter p).map f

theorem sumWhere_eq_foldl (p : Fin n → Prop) [DecidablePred p] (f : Fin n → Float) :
    sumWhere p f = (terms p f).foldl (· + ·) 0 := by
  rw [sumWhere, terms, List.foldl_map, List.foldl_filter, Fin.foldl_eq_foldl_finRange]
  simp only [decide_eq_true_eq]

/-- A sum is finite exactly if its terms are and it stays in range. -/
theorem isFinite_sumWhere_iff (p : Fin n → Prop) [DecidablePred p] (f : Fin n → Float) :
    (sumWhere p f).isFinite = true ↔
      (∀ j, p j → (f j).isFinite = true) ∧ AddsUp 0 (terms p f) := by
  rw [sumWhere_eq_foldl, isFinite_foldl_add_iff, and_iff_right (by decide)]
  simp [terms]

/-! ## The last substitution -/

/-- The row of an unknown, in the substitution of an upper triangular system: it reads finite
numbers and its operations stay in range. Its pivot may also be infinite. -/
structure RowInRange (M : Fin n → Fin n → Float) (c x : Vector Float n) (i : Fin n) : Prop where
  /-- The entry of the right-hand side is finite. -/
  rhs : (c.get i).isFinite = true
  /-- The entries behind the pivot are finite. -/
  entries : ∀ j, i < j → (M i j).isFinite = true
  /-- Their products with the unknowns that are known stay in range. -/
  products : ∀ j, i < j → |number (M i j) * number (x.get j)| < overflow
  /-- The sum of these products stays in range. -/
  sum : AddsUp 0 (terms (i < ·) fun j => M i j * x.get j)
  /-- What is left of the right-hand side stays in range. -/
  rest : |number (c.get i) - number (sumWhere (i < ·) fun j => M i j * x.get j)| < overflow
  /-- The pivot is a number or infinite. -/
  pivot : (M i i).isNaN = false
  /-- The quotient by a finite pivot stays in range. -/
  quotient : (M i i).isFinite = true →
    |number (c.get i - sumWhere (i < ·) fun j => M i j * x.get j) / number (M i i)| < overflow

/-- Every unknown is found from those behind it, with a pivot that does not count as zero. -/
def Substitutes (M : Fin n → Fin n → Float) (c x : Vector Float n) : Prop :=
  ∀ i, ¬ IsTiny (M i i) ∧
    x.get i = (c.get i - sumWhere (i < ·) fun j => M i j * x.get j) / M i i

variable {M : Fin n → Fin n → Float} {c x : Vector Float n}

/-- An unknown is finite exactly if its row stays in range, if those behind it are finite. -/
theorem isFinite_row_iff (h : Substitutes M c x) {i : Fin n}
    (behind : ∀ j, i < j → (x.get j).isFinite = true) :
    (x.get i).isFinite = true ↔ RowInRange M c x i := by
  obtain ⟨large, found⟩ := h i
  rw [found, isFinite_div_iff (beq_zero_of_not_isTiny large), isFinite_sub_iff,
    isFinite_sumWhere_iff]
  simp only [isFinite_mul_iff]
  constructor
  · rintro ⟨⟨rhs, ⟨read, sum⟩, rest⟩, pivot, quotient⟩
    exact ⟨rhs, fun j hj => (read j hj).1, fun j hj => (read j hj).2.2, sum, rest, pivot, quotient⟩
  · intro row
    exact ⟨⟨row.rhs, ⟨fun j hj => ⟨row.entries j hj, behind j hj, row.products j hj⟩, row.sum⟩,
      row.rest⟩, row.pivot, row.quotient⟩

/-- A substitution finds finite unknowns exactly if all its rows stay in range. -/
theorem isFinite_substituted_iff (h : Substitutes M c x) :
    (∀ i, (x.get i).isFinite = true) ↔ ∀ i, RowInRange M c x i := by
  constructor
  · intro finite i
    exact (isFinite_row_iff h fun j _ => finite j).mp (finite i)
  · intro rows i
    -- The unknowns are found from the last to the first.
    have order : WellFounded fun i j : Fin n => i > j := wellFounded_gt
    induction i using order.induction with
    | _ i ih => exact (isFinite_row_iff h ih).mpr (rows i)

/-- The last substitution of a direct method that finds a solution. -/
inductive LinearSystem.EndsIn (s : LinearSystem Float n) :
    DirectMethod → (Fin n → Fin n → Float) → Vector Float n → Vector Float n → Prop where
  /-- Elimination substitutes in the reduced system. -/
  | gauss {strategy : Pivoting} {R : Reduction Float n} {x : Vector Float n}
    (reduced : reduce strategy s.matrix s.rhs = .ok R)
    (found : backSubstitute R.matrix R.rhs = .ok x) : EndsIn s (.gauss strategy) R.matrix R.rhs x
  /-- A factorization substitutes in its upper factor. -/
  | lu {F : LU Float n} {y x : Vector Float n} (factored : factorize s.matrix = .ok F)
    (forward : forwardSubstitute F.lower (.ofFn (s.rhs.get ∘ F.order.get)) = .ok y)
    (found : backSubstitute F.upper y = .ok x) : EndsIn s .lu F.upper y x
  /-- That of a symmetric matrix substitutes in the transpose of its factor. -/
  | cholesky {L : Dense Float n n} {y x : Vector Float n} (factored : cholesky s.matrix = .ok L)
    (forward : forwardSubstitute L s.rhs = .ok y)
    (found : backSubstituteTransposed L y = .ok x) : EndsIn s .cholesky (fun i j => L j i) y x

namespace LinearSystem.EndsIn

variable {s : LinearSystem Float n} {m : DirectMethod}

theorem substitutes (h : s.EndsIn m M c x) : Substitutes M c x := by
  cases h with
  | gauss _ found | lu _ _ found =>
    obtain ⟨diagonal, rfl⟩ := backSubstitute_eq_ok_iff.mp found
    exact fun i => ⟨diagonal i, get_solveUpper _ _ i⟩
  | cholesky _ _ found =>
    obtain ⟨diagonal, rfl⟩ := backSubstituteTransposed_eq_ok_iff.mp found
    exact fun i => ⟨diagonal i, get_solveLowerTransposed _ _ i⟩

/-- The method finds the unknowns of its last substitution, in some order. -/
theorem solveDirect (h : s.EndsIn m M c x) :
    ∃ y, s.solveDirect m = .ok y ∧ ∃ order : Fin n → Fin n, order.Surjective ∧
      ∀ k, y.get (order k) = x.get k := by
  cases h with
  | @gauss strategy R x reduced found =>
    have shape := Reduction.reduced_of_stages reduced
    have solved := gaussSolve_eq_ok_iff.mpr ⟨R, x, reduced, found, rfl⟩
    exact ⟨_, mapError_eq_ok_iff.mpr solved, _, Finite.surjective_of_injective shape.order,
      get_scatter shape.order x⟩
  | lu factored forward found =>
    have solved := luSolve_eq_ok_iff.mpr ⟨_, _, factored, forward, found⟩
    exact ⟨_, mapError_eq_ok_iff.mpr solved, id, Function.surjective_id, fun _ => rfl⟩
  | cholesky factored forward found =>
    have solved := choleskySolve_eq_ok_iff.mpr ⟨_, _, factored, forward, found⟩
    exact ⟨_, mapError_eq_ok_iff.mpr solved, id, Function.surjective_id, fun _ => rfl⟩

end LinearSystem.EndsIn

theorem LinearSystem.exists_endsIn {s : LinearSystem Float n} {m : DirectMethod}
    {y : Vector Float n} (h : s.solveDirect m = .ok y) : ∃ M c x, s.EndsIn m M c x := by
  cases m with
  | gauss strategy =>
    obtain ⟨R, x, reduced, found, -⟩ := gaussSolve_eq_ok_iff.mp (mapError_eq_ok_iff.mp h)
    exact ⟨_, _, _, .gauss reduced found⟩
  | lu =>
    obtain ⟨F, z, factored, forward, found⟩ := luSolve_eq_ok_iff.mp (mapError_eq_ok_iff.mp h)
    exact ⟨_, _, _, .lu factored forward found⟩
  | cholesky =>
    obtain ⟨L, z, factored, forward, found⟩ := choleskySolve_eq_ok_iff.mp (mapError_eq_ok_iff.mp h)
    exact ⟨_, _, _, .cholesky factored forward found⟩

/-! ## Reports -/

/-- What is reported as a solution is finite. -/
def Report.IsFinite (report : Report Float n) : Prop :=
  report.status = .success → ∀ v ∈ report.solution, v.isFinite = true

instance (report : Report Float n) : Decidable report.IsFinite :=
  inferInstanceAs
    (Decidable (report.status = .success → ∀ v ∈ report.solution, v.isFinite = true))

theorem forall_mem_toList_iff {P : Float → Prop} {x : Vector Float n} :
    (∀ v ∈ x.toList, P v) ↔ ∀ i, P (x.get i) := by
  simp only [Vector.mem_toList_iff, Vector.mem_iff_getElem, forall_exists_index]
  constructor
  · exact fun h i => h _ i i.isLt rfl
  · rintro h _ i lt rfl
    exact h ⟨i, lt⟩

/-- A direct method reports a finite solution exactly if its last substitution stays in range. -/
theorem isFinite_direct_iff (s : LinearSystem Float n) (m : DirectMethod)
    (params : Option (StationaryParams Float)) (withSteps : Bool) :
    ((s.solve (.direct m) params).report withSteps).IsFinite ↔
      ∀ M c x, s.EndsIn m M c x → ∀ i, RowInRange M c x i := by
  -- What is found decides both sides, in whichever order it is put back.
  have each {y : Vector Float n} {M : Fin n → Fin n → Float} {c x : Vector Float n}
      (solved : s.solveDirect m = .ok y) (ends : s.EndsIn m M c x) :
      ((s.solve (.direct m) params).report withSteps).IsFinite ↔ ∀ i, RowInRange M c x i := by
    obtain ⟨y', solved', order, onto, back⟩ := ends.solveDirect
    obtain rfl := Except.ok.inj (solved.symm.trans solved')
    have report : ((s.solve (.direct m) params).report withSteps).IsFinite ↔
        ∀ v ∈ y.toList, v.isFinite = true := by
      simp [Report.IsFinite, LinearSystem.solve, solved, Answer.report]
    rw [report, forall_mem_toList_iff, ← isFinite_substituted_iff ends.substitutes, onto.forall]
    simp only [back]
  rcases solved : s.solveDirect m with fault | y
  · have failed : ((s.solve (.direct m) params).report withSteps).IsFinite := by
      intro success
      obtain ⟨x, found, -⟩ := report_direct_eq_success_iff.mp success
      cases solved.symm.trans found
    refine iff_of_true failed fun M c x ends => ?_
    obtain ⟨y, found, -⟩ := ends.solveDirect
    cases solved.symm.trans found
  · constructor
    · exact fun finite M c x ends => (each solved ends).mp finite
    · intro rows
      obtain ⟨M, c, x, ends⟩ := LinearSystem.exists_endsIn solved
      exact (each solved ends).mpr (rows M c x ends)

/-- What a stationary method reports as a solution has passed the test for divergence. -/
theorem isFinite_stationary (s : LinearSystem Float n) (m : StationaryMethod)
    (params : Option (StationaryParams Float)) (withSteps : Bool) :
    ((s.solve (.stationary m) params).report withSteps).IsFinite := by
  change ((s.solveStationary m params).report withSteps).IsFinite
  rcases solveStationary_cases s m params with
    ⟨-, cause, answer⟩ | ⟨-, p, rule, budget, rfl, -, -, -, answer⟩
  · rw [answer]
    exact nofun
  rw [answer]
  rcases stationary_cases m.sweep s.matrix s.rhs rule p.tolerance budget with
    ⟨k, first, within, run⟩ | run
  · rw [run]
    intro success
    have passed : ¬ DivergesAt m.sweep s.matrix s.rhs rule k := by
      intro diverges
      rw [if_pos diverges] at success
      cases success
    rw [DivergesAt, not_or, not_or, not_exists] at passed
    exact forall_mem_toList_iff.mpr fun i => Bool.eq_true_of_not_eq_false (passed.2.1 i)
  · rw [run]
    exact nofun

/-- **A solution is finite unless the last substitution leaves the range of doubles**, for every
system, method and parameters: the substitution of a direct method reads finite numbers, apart from
infinite pivots, and each of its operations has an exact result below the middle behind the largest
double. A stationary method has no such condition. -/
theorem isFinite_request_iff (s : LinearSystem Float n) (name : Option String)
    (params : Option (StationaryParams Float)) (withSteps : Bool) :
    (s.request name params withSteps).IsFinite ↔
      ∀ m M c x, name = some (Method.direct m).name → s.EndsIn m M c x →
        ∀ i, RowInRange M c x i := by
  rw [LinearSystem.request]
  rcases named : name.bind Method.ofName? with - | m | m
  · refine iff_of_true nofun fun m M c x same => ?_
    rw [Method.bind_ofName?_eq_some_iff.mpr same] at named
    cases named
  · obtain rfl := Method.bind_ofName?_eq_some_iff.mp named
    rw [isFinite_direct_iff]
    constructor
    · intro rows m' M c x same
      cases Method.eq_of_name rfl same
      exact rows M c x
    · exact fun rows M c x => rows m M c x rfl
  · obtain rfl := Method.bind_ofName?_eq_some_iff.mp named
    refine iff_of_true (isFinite_stationary s m params withSteps) fun m' M c x same => ?_
    cases Method.eq_of_name rfl same

/-- The equation `1e-11 * x = 1e300`, whose solution is out of range. -/
def smallPivot : LinearSystem Float 1 := ⟨.of fun _ _ => 1e-11, .ofFn fun _ => 1e300⟩

/-- Its pivot does not count as zero, and an infinite solution is reported. -/
theorem not_isFinite_smallPivot : ¬ (smallPivot.request (some "gauss") none false).IsFinite := by
  decide +kernel

end EquationSolver.Linear
