import EquationSolver.Linear.AnyShape
import EquationSolver.Proofs.Linear.Splitting

/-!
# Substitution, unknown by unknown

A substitution tests the entry on the diagonal each time before it divides by it. That is the same
as testing the whole diagonal beforehand: no entry is changed on the way, and all of them are
tested if none stops the loop. Read as a loop, a substitution takes from the matrix only the
diagonal and the entries of the unknowns found before, which make up one triangle. What stands at
the other places does not matter, whatever it is.

In exact arithmetic the loop solves the system that has zeros there, and no other vector does.

## Main definitions

* `Substitution.stage`, `Substitution.run`: one unknown, and the loop over all of them
* `Substitution.Reads`: the places of the matrix that are read
* `Dense.lowerTriangle`, `Dense.upperTriangle`: a triangle with the diagonal, and zeros elsewhere

## Main results

* `Substitution.run_eq`: the loop, and a test of the whole diagonal beforehand
* `Substitution.run_congr`: only one triangle matters
* `triangular_substitution`: the three substitutions
-/

namespace EquationSolver.Linear

open Matrix

variable {α : Type} {n : Nat}

/-! ## The loop -/

namespace Substitution

/-- The unknown that is found in a stage. -/
def unknown : Substitution → Fin n → Fin n
  | forward, k => k
  | backward, k | transposed, k => k.rev

/-- The unknown `j` is found before the unknown `i`. -/
def Before : Substitution → Fin n → Fin n → Prop
  | forward, j, i => j < i
  | backward, j, i | transposed, j, i => i < j

instance (s : Substitution) : DecidableRel (s.Before (n := n)) := fun j i =>
  match s with
  | forward => inferInstanceAs (Decidable (j < i))
  | backward | transposed => inferInstanceAs (Decidable (i < j))

/-- The coefficient of unknown `j` in the equation that unknown `i` is found from. -/
def coefficient : Substitution → Dense α n n → Fin n → Fin n → α
  | forward, M, i, j | backward, M, i, j => M i j
  | transposed, M, i, j => M j i

/-- The places of the matrix that are read. -/
def Reads : Substitution → Fin n → Fin n → Prop
  | forward, i, j | transposed, i, j => j ≤ i
  | backward, i, j => i ≤ j

section

variable [Add α] [Sub α] [Mul α] [Div α] [Zero α]

/-- The value of unknown `i`, from those found before it. -/
def value (s : Substitution) (M : Dense α n n) (v x : Vector α n) (i : Fin n) : α :=
  (v.get i - sumWhere (s.Before · i) fun j => s.coefficient M i j * x.get j) / M i i

variable [LT α] [DecidableLT α] [OfScientific α] [Scalar α]

/-- One stage: the entry on the diagonal is tested, and then the unknown is found. -/
def stage (s : Substitution) (M : Dense α n n) (v : Vector α n) (k : Fin n) (x : Vector α n) :
    Except Singularity (Vector α n) :=
  let i := s.unknown k
  if IsTiny (M i i) then .error s.cause else .ok (setEntry x i (s.value M v x i))

/-- The substitution, one unknown after the other. -/
def run (s : Substitution) (M : Dense α n n) (v : Vector α n) : Except Singularity (Vector α n) :=
  stages (s.stage M v) (zeros n) n le_rfl

variable {s : Substitution} {M M' : Dense α n n} {v x : Vector α n} {cause : Singularity}

theorem unknown_surjective (s : Substitution) : Function.Surjective (s.unknown (n := n)) := by
  cases s with
  | forward => exact Function.surjective_id
  | backward | transposed => exact Fin.rev_surjective

/-- The loop ends as if the whole diagonal had been tested before the first unknown is found. -/
theorem run_eq (s : Substitution) (M : Dense α n n) (v : Vector α n) :
    s.run M v = if hasTinyDiagonal M then .error s.cause else
      .ok (Fin.foldl n (fun x k => setEntry x (s.unknown k) (s.value M v x (s.unknown k)))
        (zeros n)) := by
  by_cases tiny : ∃ i, IsTiny (M i i)
  · rw [if_pos ((hasTinyDiagonal_eq_true_iff M).mpr tiny)]
    -- The entry is tested in the stage of its own unknown, whatever was found before.
    obtain ⟨i, tiny⟩ := tiny
    obtain ⟨k, rfl⟩ := s.unknown_surjective i
    refine stages_eq_error (k := k) ?_ fun x => if_pos tiny
    intro j x cause stopped
    simp only [stage] at stopped
    split at stopped
    · exact (Except.error.inj stopped).symm
    · cases stopped
  · rw [if_neg (mt (hasTinyDiagonal_eq_true_iff M).mp tiny)]
    exact stages_eq_ok_foldl (fun k x => if_neg fun small => tiny ⟨_, small⟩) _ n le_rfl

theorem run_eq_error_iff :
    s.run M v = .error cause ↔ cause = s.cause ∧ ∃ i, IsTiny (M i i) := by
  rw [run_eq, ← hasTinyDiagonal_eq_true_iff]
  split <;> simp [*, eq_comm]

/-- Only the entries that are read matter. -/
theorem run_congr (same : ∀ i j, s.Reads i j → M i j = M' i j) : s.run M v = s.run M' v := by
  have diagonal (i : Fin n) : M i i = M' i i := same i i (by cases s <;> exact le_refl i)
  have coefficients (i j : Fin n) (before : s.Before j i) :
      s.coefficient M i j = s.coefficient M' i j := by
    cases s with
    | forward | backward => exact same i j before.le
    | transposed => exact same j i before.le
  -- The loops are the same, for they have the same stages.
  refine stages_congr _ n le_rfl fun k _ => funext fun x => ?_
  have sums := sumWhere_congr (p := (s.Before · (s.unknown k)))
    (f := fun j => s.coefficient M (s.unknown k) j * x.get j)
    (g := fun j => s.coefficient M' (s.unknown k) j * x.get j)
    fun j before => by rw [coefficients _ j before]
  simp only [stage, value, diagonal, sums]

theorem run_forward : forward.run M v = forwardSubstitute M v := run_eq forward M v

theorem run_backward : backward.run M v = backSubstitute M v := run_eq backward M v

theorem run_transposed : transposed.run M v = backSubstituteTransposed M v := run_eq transposed M v

end

end Substitution

/-! ## What is refused and what is read -/

section

variable [Add α] [Sub α] [Mul α] [Div α] [Zero α] [LT α] [DecidableLT α] [OfScientific α]
  [Scalar α] {M M' : Dense α n n} {v : Vector α n} {cause : Singularity}

theorem forwardSubstitute_eq_error_iff :
    forwardSubstitute M v = .error cause ↔ cause = .forward ∧ ∃ i, IsTiny (M i i) := by
  rw [← Substitution.run_forward]
  exact Substitution.run_eq_error_iff

theorem backSubstitute_eq_error_iff :
    backSubstitute M v = .error cause ↔ cause = .backward ∧ ∃ i, IsTiny (M i i) := by
  rw [← Substitution.run_backward]
  exact Substitution.run_eq_error_iff

theorem backSubstituteTransposed_eq_error_iff :
    backSubstituteTransposed M v = .error cause ↔ cause = .transposed ∧ ∃ i, IsTiny (M i i) := by
  rw [← Substitution.run_transposed]
  exact Substitution.run_eq_error_iff

theorem forwardSubstitute_congr (same : ∀ i j, j ≤ i → M i j = M' i j) :
    forwardSubstitute M v = forwardSubstitute M' v := by
  rw [← Substitution.run_forward, ← Substitution.run_forward]
  exact Substitution.run_congr same

theorem backSubstitute_congr (same : ∀ i j, i ≤ j → M i j = M' i j) :
    backSubstitute M v = backSubstitute M' v := by
  rw [← Substitution.run_backward, ← Substitution.run_backward]
  exact Substitution.run_congr same

theorem backSubstituteTransposed_congr (same : ∀ i j, j ≤ i → M i j = M' i j) :
    backSubstituteTransposed M v = backSubstituteTransposed M' v := by
  rw [← Substitution.run_transposed, ← Substitution.run_transposed]
  exact Substitution.run_congr same

end

/-! ## The transpose -/

/-- The matrix with its rows as columns. -/
def Dense.transpose {m : Nat} (A : Dense α m n) : Dense α n m := .of fun i j => A j i

@[simp] theorem Dense.transpose_apply {m : Nat} (A : Dense α m n) (i : Fin n) (j : Fin m) :
    A.transpose i j = A j i := of_apply _ i j

section

variable [Add α] [Sub α] [Mul α] [Div α] [Zero α] [LT α] [DecidableLT α] [OfScientific α]
  [Scalar α]

/-- To read the columns of a matrix is to read the rows of its transpose. -/
theorem backSubstituteTransposed_eq_ok_iff_transpose (M : Dense α n n) (v x : Vector α n) :
    backSubstituteTransposed M v = .ok x ↔ backSubstitute M.transpose v = .ok x := by
  have diagonal (i : Fin n) : M.transpose i i = M i i := M.transpose_apply i i
  have unknowns : solveUpper M.transpose v = solveLowerTransposed M v := by
    simp only [solveUpper, solveLowerTransposed, Dense.transpose_apply]
  simp only [backSubstituteTransposed_eq_ok_iff, backSubstitute_eq_ok_iff, diagonal, unknowns]

end

/-! ## Exact arithmetic -/

namespace Dense

variable {K : Type} [Field K] (A : Dense K n n)

/-- The diagonal of a matrix and what is below it. -/
def lowerTriangle : Matrix (Fin n) (Fin n) K := A.part fun i j => j ≤ i

/-- The diagonal of a matrix and what is above it. -/
def upperTriangle : Matrix (Fin n) (Fin n) K := A.part fun i j => i ≤ j

variable {A} {b x : Fin n → K}

theorem lowerTriangle_mulVec_eq_iff : A.lowerTriangle *ᵥ x = b ↔ SolvesPart (· < ·) A b x := by
  rw [lowerTriangle, part_congr fun i j => le_iff_eq_or_lt]
  exact part_mulVec_eq_iff lt_irrefl

theorem upperTriangle_mulVec_eq_iff : A.upperTriangle *ᵥ x = b ↔ SolvesPart (· > ·) A b x := by
  have places (i j : Fin n) : i ≤ j ↔ j = i ∨ j > i := le_iff_eq_or_lt.trans (or_congr_left eq_comm)
  have irrefl (i : Fin n) : ¬ i > i := lt_irrefl i
  rw [upperTriangle, part_congr places]
  exact part_mulVec_eq_iff irrefl

theorem transpose_lowerTriangle : A.lowerTriangleᵀ = A.transpose.upperTriangle := by
  ext i j
  simp [lowerTriangle, upperTriangle, part]

end Dense

section

variable {K : Type} [Field K] [LinearOrder K] [IsStrictOrderedRing K] {M : Dense K n n}
  {v x y : Vector K n}

theorem lowerTriangle_mulVec_forwardSubstitute (h : forwardSubstitute M v = .ok x) :
    M.lowerTriangle *ᵥ y.get = v.get ↔ y = x := by
  rw [Dense.lowerTriangle_mulVec_eq_iff, forwardSubstitute_exact h, get_injective.eq_iff]

theorem upperTriangle_mulVec_backSubstitute (h : backSubstitute M v = .ok x) :
    M.upperTriangle *ᵥ y.get = v.get ↔ y = x := by
  rw [Dense.upperTriangle_mulVec_eq_iff, backSubstitute_exact h, get_injective.eq_iff]

theorem lowerTriangle_transpose_mulVec_backSubstituteTransposed
    (h : backSubstituteTransposed M v = .ok x) : M.lowerTriangleᵀ *ᵥ y.get = v.get ↔ y = x := by
  -- The columns of the lower triangle are the rows of an upper one.
  have columns := (backSubstituteTransposed_eq_ok_iff_transpose M v x).mp h
  rw [Dense.transpose_lowerTriangle]
  exact upperTriangle_mulVec_backSubstitute columns

end

/-! ## The three substitutions -/

/-- **Triangular systems.** In any arithmetic each substitution is refused, for a cause of its own,
exactly when some entry on the diagonal counts as zero. What it comes to depends only on the
triangle that it reads: the lower one for the forward substitution and for the one with the
transpose, the upper one for the back substitution. The substitution with the transpose finds what
the back substitution in the transposed matrix finds. In exact arithmetic the vector that is found
solves the system of the triangle, and it is the only one. -/
theorem triangular_substitution :
    (∀ {α : Type} [Add α] [Sub α] [Mul α] [Div α] [Zero α] [LT α] [DecidableLT α] [OfScientific α]
        [Scalar α] {n : Nat} (M : Dense α n n) (v : Vector α n),
      (∀ cause, forwardSubstitute M v = .error cause ↔
        cause = .forward ∧ ∃ i, IsTiny (M i i)) ∧
      (∀ cause, backSubstitute M v = .error cause ↔
        cause = .backward ∧ ∃ i, IsTiny (M i i)) ∧
      (∀ cause, backSubstituteTransposed M v = .error cause ↔
        cause = .transposed ∧ ∃ i, IsTiny (M i i)) ∧
      (∀ M' : Dense α n n, (∀ i j, j ≤ i → M i j = M' i j) →
        forwardSubstitute M v = forwardSubstitute M' v ∧
          backSubstituteTransposed M v = backSubstituteTransposed M' v) ∧
      (∀ M' : Dense α n n, (∀ i j, i ≤ j → M i j = M' i j) →
        backSubstitute M v = backSubstitute M' v) ∧
      ∀ x, backSubstituteTransposed M v = .ok x ↔ backSubstitute M.transpose v = .ok x) ∧
    ∀ {K : Type} [Field K] [LinearOrder K] [IsStrictOrderedRing K] {n : Nat} (M : Dense K n n)
        (v x : Vector K n),
      (forwardSubstitute M v = .ok x →
        ∀ y : Vector K n, M.lowerTriangle *ᵥ y.get = v.get ↔ y = x) ∧
      (backSubstitute M v = .ok x →
        ∀ y : Vector K n, M.upperTriangle *ᵥ y.get = v.get ↔ y = x) ∧
      (backSubstituteTransposed M v = .ok x →
        ∀ y : Vector K n, M.lowerTriangleᵀ *ᵥ y.get = v.get ↔ y = x) := by
  constructor
  · intro α _ _ _ _ _ _ _ _ _ n M v
    exact ⟨fun _ => forwardSubstitute_eq_error_iff, fun _ => backSubstitute_eq_error_iff,
      fun _ => backSubstituteTransposed_eq_error_iff,
      fun _ same => ⟨forwardSubstitute_congr same, backSubstituteTransposed_congr same⟩,
      fun _ same => backSubstitute_congr same, backSubstituteTransposed_eq_ok_iff_transpose M v⟩
  · intro K _ _ _ n M v x
    exact ⟨fun found _ => lowerTriangle_mulVec_forwardSubstitute found,
      fun found _ => upperTriangle_mulVec_backSubstitute found,
      fun found _ => lowerTriangle_transpose_mulVec_backSubstituteTransposed found⟩

/-- A matrix without zeros, of which each substitution reads one triangle. -/
def fullMatrix : Dense ℚ 3 3 := ⟨#v[#v[2, 7, 7], #v[1, 4, 7], #v[3, 5, 8]]⟩

theorem triangular_substitution_fullMatrix :
    (forwardSubstitute fullMatrix #v[2, 9, 21] = .ok #v[1, 2, 1] ∧
      ∀ y : Vector ℚ 3, fullMatrix.lowerTriangle *ᵥ y.get = (#v[2, 9, 21] : Vector ℚ 3).get ↔
        y = #v[1, 2, 1]) ∧
    (backSubstitute fullMatrix #v[23, 15, 8] = .ok #v[1, 2, 1] ∧
      ∀ y : Vector ℚ 3, fullMatrix.upperTriangle *ᵥ y.get = (#v[23, 15, 8] : Vector ℚ 3).get ↔
        y = #v[1, 2, 1]) ∧
    (backSubstituteTransposed fullMatrix #v[7, 13, 8] = .ok #v[1, 2, 1] ∧
      backSubstitute fullMatrix.transpose #v[7, 13, 8] = .ok #v[1, 2, 1] ∧
      ∀ y : Vector ℚ 3, fullMatrix.lowerTriangleᵀ *ᵥ y.get = (#v[7, 13, 8] : Vector ℚ 3).get ↔
        y = #v[1, 2, 1]) ∧
    forwardSubstitute (fullMatrix.setEntry 0 2 9) #v[2, 9, 21] = .ok #v[1, 2, 1] ∧
    backSubstitute (fullMatrix.setEntry 1 1 0) #v[23, 15, 8] = .error .backward := by
  have forward : forwardSubstitute fullMatrix #v[2, 9, 21] = .ok #v[1, 2, 1] := by decide +kernel
  have back : backSubstitute fullMatrix #v[23, 15, 8] = .ok #v[1, 2, 1] := by decide +kernel
  have transposed : backSubstituteTransposed fullMatrix #v[7, 13, 8] = .ok #v[1, 2, 1] := by
    decide +kernel
  obtain ⟨-, -, -, lower, -⟩ := triangular_substitution.1 fullMatrix #v[2, 9, 21]
  obtain ⟨-, -, -, -, -, transpose⟩ := triangular_substitution.1 fullMatrix #v[7, 13, 8]
  obtain ⟨-, refused, -⟩ :=
    triangular_substitution.1 (fullMatrix.setEntry 1 1 0) #v[23, 15, 8]
  refine ⟨⟨forward, (triangular_substitution.2 _ _ _).1 forward⟩,
    ⟨back, (triangular_substitution.2 _ _ _).2.1 back⟩,
    ⟨transposed, (transpose _).mp transposed, (triangular_substitution.2 _ _ _).2.2 transposed⟩,
    ?_, ?_⟩
  · exact (lower (fullMatrix.setEntry 0 2 9) (by decide +kernel)).1.symm.trans forward
  · exact (refused .backward).mpr ⟨rfl, 1, by decide +kernel⟩

end EquationSolver.Linear
