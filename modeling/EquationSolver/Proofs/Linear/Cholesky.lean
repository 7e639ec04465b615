import EquationSolver.Linear.Cholesky
import EquationSolver.Proofs.Linear.Triangular

/-!
# What the factorization of a symmetric matrix keeps

The factor is filled in entry by entry, each from those before it in its row and in the rows above.
Where square roots are exact, an entry is found so that the product of the factor with its transpose
has the given matrix's entry in its place, and entries found later do not matter there. In any
arithmetic the entries above the diagonal stay zero; where the root of an accepted square is no
zero, the diagonal of the factor has none, so that the two triangular systems behind it are solved.

## Main definitions

* `FilledTo`: the order in which the entries are filled in
* `ComesTo`, `LoopInvariant`: the states of the two loops, and what both of them keep
* `Factors`: the entries filled in make up those of the given matrix
* `RootsOnDiagonal`: the diagonal entries filled in are roots of accepted squares

## Main results

* `choleskyEntry_eq_ok_iff`, `choleskyEntry_eq_error_iff`: what an entry is, and when it is not
  found
* `LoopInvariant.of_comesTo`, `LoopInvariant.of_cholesky`: what both loops keep holds in every state
* `exists_comesTo_of_error`: where the loops stop
* `cholesky_congr`: the factor depends on the lower triangle alone
* `factors_of_cholesky`: the lower triangle of the product
* `choleskySolve_exact`: for a symmetric matrix the factor finds the only solution
* `above_of_cholesky`: the factor is lower triangular
* `not_isTiny_of_cholesky`, `choleskySolve_ne_singular`: the diagonal of the factor has no zero
-/

namespace EquationSolver.Linear

open Finset

variable {n : Nat}

/-- The entries of the rows before row `i`, and those of row `i` before column `j`. -/
def FilledTo (i j : Nat) (r c : Fin n) : Prop := (r : Nat) < i ∨ (r : Nat) = i ∧ (c : Nat) < j

/-- An entry of the lower triangle leaves nothing above the diagonal. -/
theorem above_setEntry {α : Type} [Zero α] {L : Dense α n n} {i j r c : Fin n} {e : α}
    (above : ∀ r c, r < c → L r c = 0) (left : j ≤ i) (right : r < c) :
    L.setEntry i j e r c = 0 := by
  rw [Dense.setEntry_apply, if_neg]
  · exact above r c right
  · rintro ⟨rfl, rfl⟩
    exact left.not_gt right

/-! ## The two loops -/

section

variable {α : Type} [Add α] [Sub α] [Mul α] [Div α] [Zero α] [LE α] [DecidableLE α] [LT α]
  [DecidableLT α] [OfScientific α] [Scalar α] [SquareRoot α] {A L L' : Dense α n n}

/-- What an entry is when it is found. -/
theorem choleskyEntry_eq_ok_iff {i j : Fin n} {e : α} : choleskyEntry A L i j = .ok e ↔
    (i = j ∧ ¬ A i i - sumWhere (· < i) (fun k => L i k * L i k) ≤ symmetryTolerance ∧
      squareRoot (A i i - sumWhere (· < i) fun k => L i k * L i k) = e) ∨
    (i ≠ j ∧ ¬ IsTiny (L j j) ∧
      (A i j - sumWhere (· < j) fun k => L i k * L j k) / L j j = e) := by
  unfold choleskyEntry
  dsimp only
  by_cases same : i = j
  · subst same
    rw [if_pos rfl]
    split <;> simp [*]
  · rw [if_neg same]
    split <;> simp [*]

/-- Why an entry is not found. -/
theorem choleskyEntry_eq_error_iff {i j : Fin n} {cause : Indefinite} :
    choleskyEntry A L i j = .error cause ↔ .notPositive = cause ∧
      ((i = j ∧ A i i - sumWhere (· < i) (fun k => L i k * L i k) ≤ symmetryTolerance) ∨
        i ≠ j ∧ IsTiny (L j j)) := by
  unfold choleskyEntry
  dsimp only
  by_cases same : i = j
  · subst same
    rw [if_pos rfl]
    split <;> simp [*]
  · rw [if_neg same]
    split <;> simp [*]

theorem choleskyStage_eq_error_iff {i j : Fin n} {cause : Indefinite} :
    choleskyStage A i j L = .error cause ↔ choleskyEntry A L i j = .error cause := by
  unfold choleskyStage
  rcases choleskyEntry A L i j with cause | e <;> simp [Except.map]

theorem choleskyStage_eq_ok_iff {i j : Fin n} : choleskyStage A i j L = .ok L' ↔
    ∃ e, choleskyEntry A L i j = .ok e ∧ L.setEntry i j e = L' := by
  unfold choleskyStage
  rcases choleskyEntry A L i j with cause | e <;> simp [Except.map]

/-- The loops over the rows and over the columns of a row come to the entry in row `i` and column
`j` with the factor filled in like this. -/
def ComesTo (A : Dense α n n) (i j : Fin n) (L : Dense α n n) : Prop :=
  j ≤ i ∧ ∃ L₀, stages (choleskyRow A) (.of fun _ _ => 0) i Fin.is_le' = .ok L₀ ∧
    stages (choleskyStage A i) L₀ j Fin.is_le' = .ok L

/-- What holds before the first entry, is kept by every entry of the lower triangle and carries over
from the end of a row to the next one. -/
structure LoopInvariant (A : Dense α n n) (P : Nat → Nat → Dense α n n → Prop) : Prop where
  /-- Before the first entry. -/
  start : P 0 0 (.of fun _ _ => 0)
  /-- From an entry to the next one. -/
  stage : ∀ {i j : Fin n} {L L' : Dense α n n}, P i j L → j ≤ i →
    choleskyStage A i j L = .ok L' → P i (j + 1) L'
  /-- From the end of a row to the next row. -/
  next_row : ∀ {i : Nat} {L : Dense α n n}, P i (i + 1) L → P (i + 1) 0 L

namespace LoopInvariant

variable {P : Nat → Nat → Dense α n n → Prop} {i : Fin n}

/-- The entries of a row up to the diagonal are in the lower triangle. -/
theorem of_entries (h : LoopInvariant A P) (before : P i 0 L) {k : Nat} {hk : k ≤ n}
    (left : k ≤ i + 1) (done : stages (choleskyStage A i) L k hk = .ok L') : P i k L' := by
  apply stages_induction (P := fun j L => j ≤ i + 1 → P i j L) _ _ k hk L' done left
  · exact fun _ => before
  · intro j t t' ht found hj
    exact h.stage (ht (Nat.le_of_succ_le hj)) (Nat.le_of_succ_le_succ hj) found

theorem of_rows (h : LoopInvariant A P) {k : Nat} {hk : k ≤ n}
    (done : stages (choleskyRow A) (.of fun _ _ => 0) k hk = .ok L) : P k 0 L :=
  stages_induction (P := fun i L => P i 0 L) h.start
    (fun _ _ _ before row => h.next_row (h.of_entries before le_rfl row)) k hk L done

theorem of_comesTo (h : LoopInvariant A P) {j : Fin n} (comes : ComesTo A i j L) : P i j L := by
  obtain ⟨left, L₀, rows, entries⟩ := comes
  exact h.of_entries (h.of_rows rows) (Nat.le_succ_of_le left) entries

theorem of_cholesky (h : LoopInvariant A P) (factored : cholesky A = .ok L) : P n 0 L := by
  unfold cholesky at factored
  split at factored
  · exact h.of_rows factored
  · cases factored

end LoopInvariant

/-- There is nothing above the diagonal of the factor. -/
theorem above_of_cholesky (h : cholesky A = .ok L) : ∀ r c, r < c → L r c = 0 := by
  have kept : LoopInvariant A fun _ _ L => ∀ r c, r < c → L r c = 0 := {
    start := fun r c _ => by simp
    stage := fun above left done => by
      obtain ⟨e, -, rfl⟩ := choleskyStage_eq_ok_iff.mp done
      exact fun r c => above_setEntry above left
    next_row := id }
  exact kept.of_cholesky h

/-- Where the loops stop they had come to an entry. -/
theorem exists_comesTo_of_error {cause : Indefinite} (accepted : isSymmetric A symmetryTolerance)
    (h : cholesky A = .error cause) :
    ∃ i j L, ComesTo A i j L ∧ choleskyStage A i j L = .error cause := by
  rw [cholesky, if_pos accepted] at h
  obtain ⟨i, L₀, -, rows, row⟩ := exists_stage_of_error n _ h
  obtain ⟨j, L, inside, entries, stopped⟩ := exists_stage_of_error (i + 1) _ row
  exact ⟨i, j, L, ⟨Nat.le_of_lt_succ inside, L₀, rows, entries⟩, stopped⟩

/-- A matrix that counts as symmetric is refused for a pivot only. -/
theorem notPositive_of_cholesky {cause : Indefinite} (accepted : isSymmetric A symmetryTolerance)
    (h : cholesky A = .error cause) : cause = .notPositive := by
  obtain ⟨i, j, L, -, stopped⟩ := exists_comesTo_of_error accepted h
  exact (choleskyEntry_eq_error_iff.mp (choleskyStage_eq_error_iff.mp stopped)).1.symm

/-- The loops read the lower triangle alone. -/
theorem choleskyRow_congr {B : Dense α n n} (same : ∀ i j, j ≤ i → A i j = B i j) :
    choleskyRow A = choleskyRow B := by
  funext i L
  refine stages_congr L (i + 1) _ fun j hj => ?_
  funext L
  have left : j ≤ i := Nat.le_of_lt_succ hj
  rw [choleskyStage, choleskyStage, choleskyEntry, choleskyEntry, same i i le_rfl, same i j left]

/-- Matrices that count as symmetric have the same factor, or are both refused, if they have the
same lower triangle. -/
theorem cholesky_congr {B : Dense α n n} (accepted : isSymmetric A symmetryTolerance)
    (accepted' : isSymmetric B symmetryTolerance) (same : ∀ i j, j ≤ i → A i j = B i j) :
    cholesky A = cholesky B := by
  rw [cholesky, cholesky, if_pos accepted, if_pos accepted', choleskyRow_congr same]

end

/-! ## The product -/

section

variable {K : Type} [Field K]

/-- A matrix that is filled in up to the entry in row `i` and column `j` as the factor of another
one. -/
structure Factors (A : Dense K n n) (i j : Nat) (L : Dense K n n) : Prop where
  /-- There is nothing above the diagonal. -/
  upper : ∀ r c, r < c → L r c = 0
  /-- The rows filled in have the products that the given matrix asks for. -/
  product : ∀ r c, c ≤ r → FilledTo i j r c → ∑ l with l ≤ c, L r l * L c l = A r c

variable {A L L' : Dense K n n}

theorem factors_start (A : Dense K n n) : Factors A 0 0 (.of fun _ _ => 0) where
  upper r c _ := by simp
  product r c _ filled := by simp [FilledTo] at filled

/-- A row that is filled in up to the diagonal is one of the rows done. -/
theorem Factors.next_row {i : Nat} (h : Factors A i (i + 1) L) : Factors A (i + 1) 0 L where
  upper := h.upper
  product r c left filled := by
    apply h.product r c left
    have order : (c : Nat) ≤ r := left
    simp only [FilledTo] at filled ⊢
    omega

/-- An entry of the lower triangle that has its product is filled in. -/
theorem Factors.setEntry {i j : Fin n} {e : K} (h : Factors A i j L) (left : j ≤ i)
    (fits : ∑ l with l < j, L i l * L j l + e * L.setEntry i j e j j = A i j) :
    Factors A i (j + 1) (L.setEntry i j e) where
  upper _ _ := above_setEntry h.upper left
  product r c below filled := by
    have kept {r l : Fin n} (before : r < i ∨ l < j) : L.setEntry i j e r l = L r l := by
      rw [Dense.setEntry_apply, if_neg]
      rintro ⟨rfl, rfl⟩
      exact before.elim (lt_irrefl _) (lt_irrefl _)
    by_cases last : r = i ∧ c = j
    · -- The last term of the product is the new entry's.
      obtain ⟨rfl, rfl⟩ := last
      have indices : univ.filter (· ≤ c) = insert c (univ.filter (· < c)) := by
        ext l
        simp [le_iff_eq_or_lt]
      have new : L.setEntry r c e r c = e := by simp [Dense.setEntry_apply]
      rw [indices, sum_insert (by simp), new, add_comm, ← fits]
      congr 1
      apply sum_congr rfl
      intro l hl
      have earlier := (mem_filter.mp hl).2
      rw [kept (.inr earlier), kept (.inr earlier)]
    · -- Of the entries in the product none is the new one.
      have before : FilledTo i j r c := by
        simp only [Fin.ext_iff] at last
        simp only [FilledTo] at filled ⊢
        omega
      rw [← h.product r c below before]
      apply sum_congr rfl
      intro l hl
      have earlier := (mem_filter.mp hl).2
      rcases before with above | ⟨-, same⟩
      · rw [kept (.inl above), kept (.inl (below.trans_lt above))]
      · rw [kept (.inr (earlier.trans_lt same)), kept (.inr (earlier.trans_lt same))]

/-- The factor makes up the lower triangle of the matrix with its transpose. -/
theorem Factors.mul_transpose_lower (h : Factors A n 0 L) {i j : Fin n} (left : j ≤ i) :
    ∑ l, L i l * L j l = A i j := by
  rw [← h.product i j left (.inl i.isLt), sum_filter]
  apply sum_congr rfl
  intro l _
  by_cases hl : l ≤ j
  · rw [if_pos hl]
  · rw [if_neg hl, h.upper j l (not_le.mp hl), mul_zero]

/-- The factor of a symmetric matrix makes it up with its transpose. -/
theorem Factors.mul_transpose (h : Factors A n 0 L) (symmetric : ∀ i j, A i j = A j i)
    (i j : Fin n) : ∑ l, L i l * L j l = A i j := by
  rcases le_total j i with left | right
  · exact h.mul_transpose_lower left
  · rw [symmetric, ← h.mul_transpose_lower right]
    exact sum_congr rfl fun l _ => mul_comm ..

/-! ## The stages -/

variable [LinearOrder K] [IsStrictOrderedRing K] [SquareRoot K]

/-- The entries that a stage finds have their products. -/
theorem Factors.stage {i j : Fin n} (roots : ExactRoots K) (h : Factors A i j L) (left : j ≤ i)
    (done : choleskyStage A i j L = .ok L') : Factors A i (j + 1) L' := by
  obtain ⟨e, entry, rfl⟩ := choleskyStage_eq_ok_iff.mp done
  refine h.setEntry left ?_
  rcases choleskyEntry_eq_ok_iff.mp entry with ⟨rfl, large, rfl⟩ | ⟨other, notTiny, rfl⟩
  · rw [sumWhere_eq] at large ⊢
    have positive : 0 < A i i - ∑ l with l < i, L i l * L i l :=
      lt_trans (by norm_num [symmetryTolerance]) (not_le.mp large)
    rw [Dense.setEntry_apply, if_pos ⟨rfl, rfl⟩, roots _ positive, add_sub_cancel]
  · rw [sumWhere_eq, Dense.setEntry_apply, if_neg fun same => other same.1,
      div_mul_cancel₀ _ (ne_zero_of_not_isTiny notTiny), add_sub_cancel]

theorem loopInvariant_factors (roots : ExactRoots K) (A : Dense K n n) :
    LoopInvariant A (Factors A) where
  start := factors_start A
  stage factors := factors.stage roots
  next_row := Factors.next_row

theorem factors_of_cholesky (roots : ExactRoots K) (h : cholesky A = .ok L) : Factors A n 0 L :=
  (loopInvariant_factors roots A).of_cholesky h

omit [SquareRoot K] in
/-- A symmetric matrix counts as symmetric. -/
theorem isSymmetric_of_symmetric (symmetric : ∀ i j, A i j = A j i) :
    isSymmetric A symmetryTolerance = true := by
  refine (isSymmetric_eq_true_iff ..).mpr fun i j => ?_
  rw [symmetric i j, sub_self]
  change |(0 : K)| ≤ 1e-10
  rw [abs_zero]
  norm_num

/-! ## The solution -/

/-- What a solve with the factor of a symmetric matrix does when it finds a solution. -/
theorem choleskySolve_eq_ok_iff {α : Type} [Add α] [Sub α] [Mul α] [Div α] [Zero α] [LE α]
    [DecidableLE α] [LT α] [DecidableLT α] [OfScientific α] [Scalar α] [SquareRoot α]
    {A : Dense α n n} {b x : Vector α n} : choleskySolve A b = .ok x ↔
      ∃ L y, cholesky A = .ok L ∧ forwardSubstitute L b = .ok y ∧
        backSubstituteTransposed L y = .ok x := by
  unfold choleskySolve
  rcases cholesky A with e | L
  · simp
  · rcases forward : forwardSubstitute L b with e | y <;>
      simp [forward, mapError_eq_ok_iff]

/-- The factor of a symmetric matrix finds the only solution. -/
theorem choleskySolve_exact {b x : Vector K n} {z : Fin n → K} (roots : ExactRoots K)
    (symmetric : ∀ i j, A i j = A j i) (h : choleskySolve A b = .ok x) :
    Solves A b.get z ↔ z = x.get := by
  obtain ⟨L, y, factored, forward, back⟩ := choleskySolve_eq_ok_iff.mp h
  have factors := factors_of_cholesky roots factored
  exact solves_mul (factors.mul_transpose symmetric)
    (fun w => solves_forwardSubstitute factors.upper forward)
    fun w => solves_backSubstituteTransposed factors.upper back

end

/-! ## The diagonal -/

section

variable {α : Type} [LE α] [LT α] [OfScientific α] [Scalar α] [SquareRoot α] {i j : Nat}
  {L : Dense α n n}

/-- The diagonal entries that are filled in are roots of accepted squares. -/
def RootsOnDiagonal (i j : Nat) (L : Dense α n n) : Prop :=
  ∀ r, FilledTo i j r r → ∃ v, ¬ v ≤ symmetryTolerance ∧ L r r = squareRoot v

/-- The diagonal entries that are filled in count as no zeros. -/
def KeepsDiagonal (i j : Nat) (L : Dense α n n) : Prop :=
  ∀ r, FilledTo i j r r → ¬ IsTiny (L r r)

theorem RootsOnDiagonal.keepsDiagonal
    (roots : ∀ v : α, ¬ v ≤ symmetryTolerance → ¬ IsTiny (squareRoot v))
    (h : RootsOnDiagonal i j L) : KeepsDiagonal i j L := by
  intro r filled
  obtain ⟨v, large, root⟩ := h r filled
  rw [root]
  exact roots v large

end

variable {α : Type} [Add α] [Sub α] [Mul α] [Div α] [Zero α] [LE α] [DecidableLE α] [LT α]
  [DecidableLT α] [OfScientific α] [Scalar α] [SquareRoot α] {A L L' : Dense α n n}

theorem RootsOnDiagonal.stage {i j : Fin n} (h : RootsOnDiagonal i j L)
    (done : choleskyStage A i j L = .ok L') : RootsOnDiagonal i (j + 1) L' := by
  obtain ⟨e, entry, rfl⟩ := choleskyStage_eq_ok_iff.mp done
  intro r filled
  rw [Dense.setEntry_apply]
  split
  · -- The new entry is on the diagonal, so it is the root of an accepted square.
    rename_i new
    obtain ⟨rfl, same⟩ := new
    obtain ⟨-, large, root⟩ | ⟨other, -⟩ := choleskyEntry_eq_ok_iff.mp entry
    · exact ⟨_, large, root.symm⟩
    · exact absurd same.symm other
  · apply h r
    rename_i old
    simp only [Fin.ext_iff] at old
    simp only [FilledTo] at filled ⊢
    omega

theorem loopInvariant_rootsOnDiagonal (A : Dense α n n) : LoopInvariant A RootsOnDiagonal where
  start r filled := by simp [FilledTo] at filled
  stage h _ done := h.stage done
  next_row h r filled := by
    apply h r
    simp only [FilledTo] at filled ⊢
    omega

/-- Every diagonal entry of the factor is the root of an accepted square. -/
theorem root_of_cholesky (h : cholesky A = .ok L) (i : Fin n) :
    ∃ v, ¬ v ≤ symmetryTolerance ∧ L i i = squareRoot v :=
  (loopInvariant_rootsOnDiagonal A).of_cholesky h i (.inl i.isLt)

/-- The diagonal of the factor counts as free of zeros. -/
theorem not_isTiny_of_cholesky
    (roots : ∀ v : α, ¬ v ≤ symmetryTolerance → ¬ IsTiny (squareRoot v))
    (h : cholesky A = .ok L) (i : Fin n) : ¬ IsTiny (L i i) :=
  ((loopInvariant_rootsOnDiagonal A).of_cholesky h).keepsDiagonal roots i (.inl i.isLt)

/-- Where no diagonal entry of the factor counts as zero, both substitutions behind it succeed. -/
theorem exists_choleskySolve (factored : cholesky A = .ok L) (diagonal : ∀ i, ¬ IsTiny (L i i))
    (b : Vector α n) : ∃ y x, forwardSubstitute L b = .ok y ∧
      backSubstituteTransposed L y = .ok x ∧ choleskySolve A b = .ok x := by
  have forward : forwardSubstitute L b = .ok (solveLower L b) :=
    forwardSubstitute_eq_ok_iff.mpr ⟨diagonal, rfl⟩
  have back : backSubstituteTransposed L (solveLower L b) =
      .ok (solveLowerTransposed L (solveLower L b)) :=
    backSubstituteTransposed_eq_ok_iff.mpr ⟨diagonal, rfl⟩
  exact ⟨_, _, forward, back, choleskySolve_eq_ok_iff.mpr ⟨L, _, factored, forward, back⟩⟩

/-- A matrix that has a factor is not refused as singular behind it. -/
theorem choleskySolve_ne_singular
    (roots : ∀ v : α, ¬ v ≤ symmetryTolerance → ¬ IsTiny (squareRoot v)) (A : Dense α n n)
    (b : Vector α n) (cause : Singularity) : choleskySolve A b ≠ .error (.singular cause) := by
  rcases factored : cholesky A with e | L
  · rw [choleskySolve, factored]
    exact nofun
  · obtain ⟨y, x, -, -, solved⟩ :=
      exists_choleskySolve factored (not_isTiny_of_cholesky roots factored) b
    rw [solved]
    exact nofun

end EquationSolver.Linear
