import EquationSolver.Linear.Triangular
import EquationSolver.Proofs.Linear.Exact

/-!
# The solution of a triangular system

The three substitutions fill a vector one entry after the other, each from the entries before it.
In any arithmetic the filled vector satisfies the equations by which its entries were found; in
exact arithmetic these say that it solves the triangular part of the system, and that nothing else
does.

## Main definitions

* `SolvesPart`: the equations of the entries on the diagonal and before it

## Main results

* `get_solveLower`, `get_solveUpper`, `get_solveLowerTransposed`: how each entry was found
* `forwardSubstitute_exact`, `backSubstitute_exact`, `backSubstituteTransposed_exact`: the
  substitutions find the only solution
-/

namespace EquationSolver.Linear

open Finset

variable {α β : Type} {n : Nat}

/-! ## Filling a vector -/

/-- What the start has and every step keeps, the end of a loop over all indices has. -/
theorem foldl_induction {f : β → Fin n → β} {s : β} {P : Nat → β → Prop} (start : P 0 s)
    (step : ∀ (k : Fin n) t, P k t → P (k + 1) (f t k)) : P n (Fin.foldl n f s) := by
  induction n with
  | zero => exact start
  | succ n ih =>
    rw [Fin.foldl_succ_last]
    exact step (Fin.last n) _ (ih fun k t h => step k.castSucc t h)

/-- A vector that is filled in some order, each entry from those filled before it, has every entry
as it is found from the whole vector. -/
theorem get_foldl_setEntry {p : Fin n → Fin n} (places : Function.Injective p)
    {f : Vector α n → Fin n → α} {start : Vector α n}
    (earlier : ∀ v w k, (∀ j < k, v.get (p j) = w.get (p j)) → f v k = f w k)
    (k : Fin n) :
    let filled := Fin.foldl n (fun v k => setEntry v (p k) (f v k)) start
    filled.get (p k) = f filled k := by
  intro filled
  have each : ∀ k : Fin n, (k : Nat) < n → filled.get (p k) = f filled k := by
    -- The entries filled so far are as they are found, and a later step keeps that.
    apply foldl_induction (P := fun m v => ∀ k : Fin n, (k : Nat) < m → v.get (p k) = f v k)
    · intro k h
      exact absurd h (Nat.not_lt_zero _)
    · intro m v found k hk
      have kept (j : Fin n) (hj : j < m) :
          (setEntry v (p m) (f v m)).get (p j) = v.get (p j) := by
        rw [get_setEntry, if_neg]
        intro same
        exact hj.ne' (places same)
      rcases lt_or_eq_of_lt_succ hk with before | rfl
      · rw [kept k before, found k before]
        exact earlier _ _ _ fun j hj => (kept j (hj.trans before)).symm
      · rw [get_setEntry, if_pos rfl]
        exact earlier _ _ _ fun j hj => (kept j hj).symm
  exact each k k.isLt

section

variable [Add α] [Sub α] [Mul α] [Div α] [Zero α]

theorem get_solveLower (L : Dense α n n) (b : Vector α n) (i : Fin n) :
    (solveLower L b).get i =
      (b.get i - sumWhere (· < i) fun j => L i j * (solveLower L b).get j) / L i i := by
  apply get_foldl_setEntry (p := id) Function.injective_id
    (f := fun y i => (b.get i - sumWhere (· < i) fun j => L i j * y.get j) / L i i)
  intro v w k h
  simp only [id_eq] at h
  have sums : sumWhere (· < k) (fun j => L k j * v.get j) =
      sumWhere (· < k) fun j => L k j * w.get j :=
    sumWhere_congr fun j hj => by rw [h j hj]
  rw [sums]

/-- The unknowns from the last to the first: each is found from those behind it. -/
theorem get_foldl_rev {M : Fin n → Fin n → α} {b : Vector α n} (i : Fin n) :
    let x := Fin.foldl n (fun x k =>
      let i := k.rev
      setEntry x i ((b.get i - sumWhere (i < ·) fun j => M i j * x.get j) / M i i)) (zeros n)
    x.get i = (b.get i - sumWhere (i < ·) fun j => M i j * x.get j) / M i i := by
  -- The unknown with index `i` is found in step `i.rev`.
  rw [← i.rev_rev]
  apply get_foldl_setEntry Fin.rev_injective
    (f := fun x k =>
      (b.get k.rev - sumWhere (k.rev < ·) fun j => M k.rev j * x.get j) / M k.rev k.rev)
  intro v w k h
  have sums : sumWhere (k.rev < ·) (fun j => M k.rev j * v.get j) =
      sumWhere (k.rev < ·) fun j => M k.rev j * w.get j := by
    apply sumWhere_congr
    intro j hj
    have same := h j.rev (Fin.rev_lt_iff.mp hj)
    rw [j.rev_rev] at same
    rw [same]
  rw [sums]

theorem get_solveUpper (U : Dense α n n) (b : Vector α n) (i : Fin n) :
    (solveUpper U b).get i =
      (b.get i - sumWhere (i < ·) fun j => U i j * (solveUpper U b).get j) / U i i :=
  get_foldl_rev i

theorem get_solveLowerTransposed (L : Dense α n n) (b : Vector α n) (i : Fin n) :
    (solveLowerTransposed L b).get i =
      (b.get i - sumWhere (i < ·) fun j => L j i * (solveLowerTransposed L b).get j) / L i i :=
  get_foldl_rev (M := fun i j => L j i) i

end

/-! ## The equations of a triangle -/

section

variable {K : Type} [Field K]

/-- The equations of the entries on the diagonal and of those that come before it in an order. -/
def SolvesPart (before : Fin n → Fin n → Prop) [DecidableRel before] (M : Fin n → Fin n → K)
    (b x : Fin n → K) : Prop :=
  ∀ i, M i i * x i + ∑ j with before j i, M i j * x j = b i

variable {before : Fin n → Fin n → Prop} [DecidableRel before] {M : Fin n → Fin n → K}
  {b x y : Fin n → K}

/-- Where the other entries are zero, the equations of the triangle are those of the system. -/
theorem solves_iff_solvesPart (irrefl : ∀ i, ¬ before i i)
    (zero : ∀ i j, i ≠ j → ¬ before j i → M i j = 0) : Solves M b x ↔ SolvesPart before M b x := by
  apply forall_congr'
  intro i
  have row : ∑ j, M i j * x j = M i i * x i + ∑ j with before j i, M i j * x j := by
    rw [← sum_filter_add_sum_filter_not univ (before · i), add_comm]
    congr 1
    -- Of the entries that do not come before the diagonal only the diagonal one counts.
    apply sum_eq_single_of_mem i (by simp [irrefl])
    intro j hj other
    rw [zero i j other.symm (mem_filter.mp hj).2, zero_mul]
  rw [row]

theorem solvesPart_iff (diagonal : ∀ i, M i i ≠ 0) : SolvesPart before M b x ↔
    ∀ i, x i = (b i - ∑ j with before j i, M i j * x j) / M i i := by
  apply forall_congr'
  intro i
  rw [eq_div_iff (diagonal i), eq_sub_iff_add_eq, mul_comm]

/-- What is found one after the other is the only solution. -/
theorem solvesPart_iff_eq (order : WellFounded before) (diagonal : ∀ i, M i i ≠ 0)
    (found : ∀ i, x i = (b i - ∑ j with before j i, M i j * x j) / M i i) :
    SolvesPart before M b y ↔ y = x := by
  rw [solvesPart_iff diagonal]
  constructor
  · intro solves
    funext i
    -- The unknowns before `i` agree, and they determine it.
    induction i using order.induction with
    | _ i ih =>
      have sums : ∑ j with before j i, M i j * y j = ∑ j with before j i, M i j * x j := by
        apply sum_congr rfl
        intro j hj
        rw [ih j (mem_filter.mp hj).2]
      rw [solves i, found i, sums]
  · rintro rfl
    exact found

end

/-! ## The substitutions -/

section

variable [Add α] [Sub α] [Mul α] [Div α] [Zero α] [LT α] [DecidableLT α] [OfScientific α]
  [Scalar α] {L U : Dense α n n} {b x : Vector α n}

theorem forwardSubstitute_eq_ok_iff : forwardSubstitute L b = .ok x ↔
    (∀ i, ¬ IsTiny (L i i)) ∧ solveLower L b = x := by
  rw [← not_exists, ← hasTinyDiagonal_eq_true_iff, forwardSubstitute]
  split <;> simp [*]

theorem backSubstitute_eq_ok_iff : backSubstitute U b = .ok x ↔
    (∀ i, ¬ IsTiny (U i i)) ∧ solveUpper U b = x := by
  rw [← not_exists, ← hasTinyDiagonal_eq_true_iff, backSubstitute]
  split <;> simp [*]

theorem backSubstituteTransposed_eq_ok_iff : backSubstituteTransposed L b = .ok x ↔
    (∀ i, ¬ IsTiny (L i i)) ∧ solveLowerTransposed L b = x := by
  rw [← not_exists, ← hasTinyDiagonal_eq_true_iff, backSubstituteTransposed]
  split <;> simp [*]

end

section

variable {K : Type} [Field K] [LinearOrder K] [IsStrictOrderedRing K] {L U : Dense K n n}
  {b x : Vector K n} {z : Fin n → K}

theorem forwardSubstitute_exact (h : forwardSubstitute L b = .ok x) :
    SolvesPart (· < ·) L b.get z ↔ z = x.get := by
  obtain ⟨diagonal, rfl⟩ := forwardSubstitute_eq_ok_iff.mp h
  apply solvesPart_iff_eq wellFounded_lt
  · intro i
    exact ne_zero_of_not_isTiny (diagonal i)
  · intro i
    rw [get_solveLower, sumWhere_eq]

theorem backSubstitute_exact (h : backSubstitute U b = .ok x) :
    SolvesPart (· > ·) U b.get z ↔ z = x.get := by
  obtain ⟨diagonal, rfl⟩ := backSubstitute_eq_ok_iff.mp h
  apply solvesPart_iff_eq wellFounded_gt
  · intro i
    exact ne_zero_of_not_isTiny (diagonal i)
  · intro i
    rw [get_solveUpper, sumWhere_eq]

theorem backSubstituteTransposed_exact (h : backSubstituteTransposed L b = .ok x) :
    SolvesPart (· > ·) (fun i j => L j i) b.get z ↔ z = x.get := by
  obtain ⟨diagonal, rfl⟩ := backSubstituteTransposed_eq_ok_iff.mp h
  apply solvesPart_iff_eq wellFounded_gt
  · intro i
    exact ne_zero_of_not_isTiny (diagonal i)
  · intro i
    rw [get_solveLowerTransposed, sumWhere_eq]

/-- With a lower triangular matrix the forward substitution solves the system. -/
theorem solves_forwardSubstitute (zero : ∀ i j, i < j → L i j = 0)
    (h : forwardSubstitute L b = .ok x) : Solves L b.get z ↔ z = x.get := by
  rw [← forwardSubstitute_exact h]
  exact solves_iff_solvesPart lt_irrefl fun i j other notLeft =>
    zero i j (lt_of_le_of_ne (not_lt.mp notLeft) other)

/-- With an upper triangular matrix the back substitution solves the system. -/
theorem solves_backSubstitute (zero : ∀ i j, j < i → U i j = 0)
    (h : backSubstitute U b = .ok x) : Solves U b.get z ↔ z = x.get := by
  rw [← backSubstitute_exact h]
  exact solves_iff_solvesPart lt_irrefl fun i j other notRight =>
    zero i j (lt_of_le_of_ne (not_lt.mp notRight) other.symm)

/-- With a lower triangular matrix the back substitution solves the system of its transpose. -/
theorem solves_backSubstituteTransposed (zero : ∀ i j, i < j → L i j = 0)
    (h : backSubstituteTransposed L b = .ok x) :
    Solves (fun i j => L j i) b.get z ↔ z = x.get := by
  rw [← backSubstituteTransposed_exact h]
  exact solves_iff_solvesPart lt_irrefl fun i j other notRight =>
    zero j i (lt_of_le_of_ne (not_lt.mp notRight) other.symm)

end

end EquationSolver.Linear
