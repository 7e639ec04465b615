import EquationSolver.Linear.Elimination
import EquationSolver.Proofs.Linear.Triangular

/-!
# What an elimination keeps

A stage exchanges rows and columns behind the diagonal and takes multiples of the pivot row from the
rows below. In any arithmetic the columns done stay cleared and the order of the unknowns loses
none; in exact arithmetic the stage keeps the solutions, up to the order of the unknowns. The
solution of the reduced system is therefore, put back in order, the only one of the given system.

## Main definitions

* `Reduction.Reduced`: the shape of a system after its first stages
* `Reduction.Keeps`: a partly reduced system has the solutions of the given one

## Main results

* `Reduction.induction_of_stages`: what every stage keeps because of the shape before it
* `Reduction.reduced_of_stages`, `Reduction.keeps_of_stages`: what holds after some stages
* `Reduction.order_of_stages`: which strategies leave the unknowns where they are
* `exists_backSubstitute`: a reduced system is solved
* `get_scatter`: the order of the unknowns is undone
* `gaussSolve_exact`: an elimination finds the only solution
-/

namespace EquationSolver.Linear

open Finset

variable {α : Type} {n : Nat}

/-! ## The choice of a pivot -/

section

variable [LE α] [DecidableLE α] [Scalar α]

theorem firstLargest_mem {ι : Type} (value : ι → α) (start : ι) (candidates : List ι) :
    firstLargest value start candidates ∈ start :: candidates := by
  induction candidates generalizing start with
  | nil => exact List.mem_singleton_self start
  | cons i candidates ih =>
    rw [firstLargest, List.foldl_cons]
    -- The candidate takes the place of the start, or the start keeps it.
    split
    · exact List.mem_cons_of_mem _ (ih i)
    · rcases List.mem_cons.mp (ih start) with same | later
      · exact List.mem_cons.mpr (.inl same)
      · exact List.mem_cons_of_mem _ (List.mem_cons_of_mem _ later)

theorem mem_indicesFrom {k i : Fin n} : i ∈ indicesFrom k ↔ k ≤ i := by
  simp [indicesFrom]

theorem le_largestInColumn (A : Dense α n n) (k : Fin n) : k ≤ largestInColumn A k := by
  have chosen : largestInColumn A k ∈ k :: indicesFrom k := firstLargest_mem ..
  rcases List.mem_cons.mp chosen with same | later
  · exact same.ge
  · exact mem_indicesFrom.mp later

theorem le_largestFrom (A : Dense α n n) (k : Fin n) :
    k ≤ (largestFrom A k).1 ∧ k ≤ (largestFrom A k).2 := by
  have chosen : largestFrom A k ∈ (k, k) :: (indicesFrom k).flatMap fun i =>
      (indicesFrom k).map fun j => (i, j) := firstLargest_mem ..
  rcases List.mem_cons.mp chosen with same | later
  · rw [same]
    exact ⟨le_rfl, le_rfl⟩
  · obtain ⟨i, hi, inner⟩ := List.mem_flatMap.mp later
    obtain ⟨j, hj, same⟩ := List.mem_map.mp inner
    rw [← same]
    exact ⟨mem_indicesFrom.mp hi, mem_indicesFrom.mp hj⟩

/-- A pivot is chosen among the rows and columns that are left. -/
theorem Pivoting.le_pivot [LT α] [DecidableLT α] [OfScientific α] (strategy : Pivoting)
    (A : Dense α n n) (k : Fin n) :
    k ≤ (strategy.pivot A k).1 ∧ k ≤ (strategy.pivot A k).2 := by
  cases strategy with
  | natural =>
    refine ⟨?_, le_rfl⟩
    dsimp only [pivot]
    split
    · exact le_largestInColumn A k
    · exact le_rfl
  | column => exact ⟨le_largestInColumn A k, le_rfl⟩
  | full => exact le_largestFrom A k

/-- Only full pivoting looks in other columns. -/
theorem Pivoting.pivot_snd [LT α] [DecidableLT α] [OfScientific α] {strategy : Pivoting}
    (notFull : strategy ≠ .full) (A : Dense α n n) (k : Fin n) : (strategy.pivot A k).2 = k := by
  cases strategy with
  | natural => rfl
  | column => rfl
  | full => contradiction

end

/-! ## One stage -/

namespace Reduction

@[simp] theorem bring_matrix (R : Reduction α n) (k p q i j : Fin n) :
    (R.bring k p q).matrix i j = R.matrix (exchange k p i) (exchange k q j) := by
  simp [bring]

theorem bring_self (R : Reduction α n) (k : Fin n) : R.bring k k k = R := by
  simp [bring, exchangesAt]

section

variable [Sub α] [Mul α] [Div α] [Zero α]

/-- The rows up to the pivot row stay as they are. -/
theorem clear_of_le (R : Reduction α n) {k i : Fin n} (h : i ≤ k) (j : Fin n) :
    (R.clear k).matrix i j = R.matrix i j := by
  simp [clear, h.not_gt]

theorem clear_of_lt (R : Reduction α n) {k j : Fin n} (h : j < k) (i : Fin n) :
    (R.clear k).matrix i j = R.matrix i j := by
  simp [clear, h]

theorem clear_self (R : Reduction α n) {k i : Fin n} (h : k < i) :
    (R.clear k).matrix i k = 0 := by
  simp [clear, h]

/-- A multiple of the pivot row is taken from every row below it. -/
theorem clear_of_gt (R : Reduction α n) {k i j : Fin n} (hi : k < i) (hj : k < j) :
    (R.clear k).matrix i j = R.matrix i j - R.factor k i * R.matrix k j := by
  simp [clear, hi, hj.not_gt, hj.ne']

theorem get_rhs_clear (R : Reduction α n) (k i : Fin n) : (R.clear k).rhs.get i =
    if k < i then R.rhs.get i - R.factor k i * R.rhs.get k else R.rhs.get i := by
  simp [clear]

/-- What a stage does when it does not break down. -/
theorem stage_eq_ok_iff [LE α] [DecidableLE α] [LT α] [DecidableLT α] [OfScientific α] [Scalar α]
    {strategy : Pivoting} {k : Fin n} {R R' : Reduction α n} :
    stage strategy k R = .ok R' ↔
      ∃ p q, strategy.pivot R.matrix k = (p, q) ∧ ¬ IsTiny (R.matrix p q) ∧
        (R.bring k p q).clear k = R' := by
  unfold stage
  rcases strategy.pivot R.matrix k with ⟨p, q⟩
  dsimp only
  split
  · rename_i tiny
    constructor
    · intro h
      cases h
    · rintro ⟨_, _, pivot, notTiny, -⟩
      cases pivot
      exact absurd tiny notTiny
  · rename_i notTiny
    constructor
    · intro h
      exact ⟨p, q, rfl, notTiny, Except.ok.inj h⟩
    · rintro ⟨_, _, pivot, -, rfl⟩
      cases pivot
      rfl

/-- A stage brings a pivot that does not count as zero to the diagonal, from the rows and columns
that are left, and clears its column. -/
theorem brought_of_stage [LE α] [DecidableLE α] [LT α] [DecidableLT α] [OfScientific α] [Scalar α]
    {strategy : Pivoting} {k : Fin n} {R R' : Reduction α n} (h : stage strategy k R = .ok R') :
    ∃ p q, k ≤ p ∧ k ≤ q ∧ ¬ IsTiny ((R.bring k p q).matrix k k) ∧
      (R.bring k p q).clear k = R' := by
  obtain ⟨p, q, pivot, notTiny, cleared⟩ := stage_eq_ok_iff.mp h
  have left := strategy.le_pivot R.matrix k
  rw [pivot] at left
  refine ⟨p, q, left.1, left.2, ?_, cleared⟩
  rwa [bring_matrix, exchange_left, exchange_left]

/-- A stage breaks down on a pivot that counts as zero. -/
theorem tiny_of_stage [LE α] [DecidableLE α] [LT α] [DecidableLT α] [OfScientific α] [Scalar α]
    {strategy : Pivoting} {k : Fin n} {R : Reduction α n} {e : Breakdown (Reduction α n)}
    (h : stage strategy k R = .error e) :
    e = ⟨k, R⟩ ∧ IsTiny (R.matrix (strategy.pivot R.matrix k).1 (strategy.pivot R.matrix k).2) := by
  unfold stage at h
  dsimp only at h
  split at h
  · exact ⟨(Except.error.inj h).symm, ‹_›⟩
  · cases h

end

/-! ## The shape of a partly reduced system -/

section

variable [Zero α] [LT α] [OfScientific α] [Scalar α]

/-- The shape of a system after its first `k` stages. -/
structure Reduced (k : Nat) (R : Reduction α n) : Prop where
  /-- The columns done are cleared below the diagonal. -/
  cleared : ∀ i j : Fin n, (j : Nat) < k → j < i → R.matrix i j = 0
  /-- Their diagonal entries do not count as zero. -/
  diagonal : ∀ i : Fin n, (i : Nat) < k → ¬ IsTiny (R.matrix i i)
  /-- No two columns belong to the same unknown. -/
  order : Function.Injective R.order.get

theorem reduced_start (A : Dense α n n) (b : Vector α n) : Reduced 0 (start A b) where
  cleared _ _ h := absurd h (Nat.not_lt_zero _)
  diagonal _ h := absurd h (Nat.not_lt_zero _)
  order i j h := by simpa [start] using h

/-- An exchange behind the columns done keeps the shape. -/
theorem Reduced.bring {k p q : Fin n} {R : Reduction α n} (h : Reduced k R) (hp : k ≤ p)
    (hq : k ≤ q) : Reduced k (R.bring k p q) where
  cleared i j hj below := by
    have done : j < k := hj
    rw [bring_matrix, exchange_of_lt hq done]
    apply h.cleared _ _ hj
    -- The row that comes to place `i` is below the columns done as well.
    by_cases hi : i < k
    · rwa [exchange_of_lt hp hi]
    · rw [← exchange_lt_iff hp, not_lt] at hi
      exact done.trans_le hi
  diagonal i hi := by
    have done : i < k := hi
    rw [bring_matrix, exchange_of_lt hp done, exchange_of_lt hq done]
    exact h.diagonal i hi
  order i j same := by
    simp only [Reduction.bring, get_exchangeEntries] at same
    exact (exchange_bijective k q).injective (h.order same)

variable [Sub α] [Mul α] [Div α]

/-- Clearing the column of the pivot adds it to the columns done. -/
theorem Reduced.clear {k : Fin n} {R : Reduction α n} (h : Reduced k R)
    (pivot : ¬ IsTiny (R.matrix k k)) : Reduced (k + 1) (R.clear k) where
  cleared i j hj below := by
    rcases lt_or_eq_of_lt_succ hj with done | rfl
    · rw [clear_of_lt R done]
      exact h.cleared i j done below
    · exact clear_self R below
  diagonal i hi := by
    rw [clear_of_le R (Nat.lt_succ_iff.mp hi)]
    rcases lt_or_eq_of_lt_succ hi with done | rfl
    · exact h.diagonal i done
    · exact pivot
  order := h.order

variable [LE α] [DecidableLE α] [DecidableLT α]

theorem Reduced.stage {strategy : Pivoting} {k : Fin n} {R R' : Reduction α n} (h : Reduced k R)
    (done : Reduction.stage strategy k R = .ok R') : Reduced (k + 1) R' := by
  obtain ⟨p, q, hp, hq, notTiny, rfl⟩ := brought_of_stage done
  exact (h.bring hp hq).clear notTiny

theorem reduced_of_stages {strategy : Pivoting} {A : Dense α n n} {b : Vector α n} {k : Nat}
    {hk : k ≤ n} {R : Reduction α n}
    (h : stages (Reduction.stage strategy) (start A b) k hk = .ok R) : Reduced k R :=
  stages_induction (reduced_start A b) (fun _ _ _ => Reduced.stage) k hk R h

/-- What the start has and every stage keeps because of the shape that the stages before it left,
every reached system has. -/
theorem induction_of_stages {strategy : Pivoting} {A : Dense α n n} {b : Vector α n}
    {P : Nat → Reduction α n → Prop} (first : P 0 (start A b))
    (step : ∀ (k : Fin n) R R', Reduced k R → P k R → Reduction.stage strategy k R = .ok R' →
      P (k + 1) R')
    {k : Nat} {hk : k ≤ n} {R : Reduction α n}
    (h : stages (Reduction.stage strategy) (start A b) k hk = .ok R) : P k R := by
  have both : Reduced k R ∧ P k R := by
    apply stages_induction (P := fun k R => Reduced k R ∧ P k R) ⟨reduced_start A b, first⟩ _ k hk
      R h
    rintro k t t' ⟨shape, kept⟩ done
    exact ⟨shape.stage done, step k t t' shape kept done⟩
  exact both.2

/-- Without full pivoting every unknown keeps its place. -/
theorem order_of_stages {strategy : Pivoting} (notFull : strategy ≠ .full) {A : Dense α n n}
    {b : Vector α n} {k : Nat} {hk : k ≤ n} {R : Reduction α n}
    (h : stages (Reduction.stage strategy) (start A b) k hk = .ok R) : R.order.get = id := by
  apply stages_induction (P := fun _ R => R.order.get = id) _ _ k hk R h
  · funext i
    simp [start]
  · intro k R R' same done
    obtain ⟨p, q, pivot, -, rfl⟩ := stage_eq_ok_iff.mp done
    obtain rfl : q = k := by rw [← Pivoting.pivot_snd notFull R.matrix k, pivot]
    change (exchangeEntries R.order q q).get = id
    rw [exchangeEntries_self, same]

end

/-! ## The solutions of a partly reduced system -/

section

variable {K : Type} [Field K] {A : Dense K n n} {b : Vector K n} {R R' : Reduction K n}
  {k p q : Fin n}

/-- A partly reduced system has the solutions of the given one, with the unknowns in its order. -/
def Keeps (A : Dense K n n) (b : Vector K n) (R : Reduction K n) : Prop :=
  ∀ x, Solves A b.get x ↔ Solves R.matrix R.rhs.get (x ∘ R.order.get)

theorem keeps_start (A : Dense K n n) (b : Vector K n) : Keeps A b (start A b) := by
  intro x
  have order : (start A b).order.get = id := by
    funext i
    simp [start]
  rw [order, Function.comp_id]
  rfl

/-- The exchanges of a stage keep the solutions. -/
theorem Keeps.bring (h : Keeps A b R) (k p q : Fin n) : Keeps A b (R.bring k p q) := by
  intro x
  have order : x ∘ (R.bring k p q).order.get = (x ∘ R.order.get) ∘ exchange k q := by
    funext i
    simp [Reduction.bring]
  rw [h, order]
  exact (solves_exchangeRows k p).symm.trans (solves_exchangeColumns k q).symm

variable [LinearOrder K]

/-- Clearing takes a multiple of the pivot row from a row below it, in every column. -/
theorem Reduced.clear_row (h : Reduced k R) (pivot : R.matrix k k ≠ 0) {i : Fin n} (below : k < i)
    (j : Fin n) : (R.clear k).matrix i j = R.matrix i j - R.factor k i * R.matrix k j := by
  rcases lt_trichotomy j k with done | rfl | later
  · rw [clear_of_lt R done, h.cleared k j done done, mul_zero, sub_zero]
  · rw [clear_self R below, factor, div_mul_cancel₀ _ pivot, sub_self]
  · exact clear_of_gt R below later

/-- Clearing the column of the pivot keeps the solutions. -/
theorem Reduced.solves_clear (h : Reduced k R) (pivot : R.matrix k k ≠ 0) {x : Fin n → K} :
    Solves (R.clear k).matrix (R.clear k).rhs.get x ↔ Solves R.matrix R.rhs.get x := by
  have above {i : Fin n} (hi : ¬ k < i) :
      ∑ j, (R.clear k).matrix i j * x j = ∑ j, R.matrix i j * x j := by
    apply sum_congr rfl
    intro j _
    rw [clear_of_le R (not_lt.mp hi)]
  have below {i : Fin n} (hi : k < i) : ∑ j, (R.clear k).matrix i j * x j =
      ∑ j, R.matrix i j * x j - R.factor k i * ∑ j, R.matrix k j * x j := by
    simp only [h.clear_row pivot hi, sub_mul, sum_sub_distrib, mul_sum, mul_assoc]
  -- The equation of the pivot row is in both systems, and it turns each into the other.
  constructor
  · intro solves
    have row := solves k
    rw [above (lt_irrefl k), get_rhs_clear, if_neg (lt_irrefl k)] at row
    intro i
    have equation := solves i
    rw [get_rhs_clear] at equation
    split at equation
    · rw [below ‹_›, row] at equation
      exact sub_left_injective equation
    · rwa [above ‹_›] at equation
  · intro solves i
    rw [get_rhs_clear]
    split
    · rw [below ‹_›, solves i, solves k]
    · rw [above ‹_›, solves i]

variable [IsStrictOrderedRing K]

/-- A stage keeps the solutions. -/
theorem Keeps.stage {strategy : Pivoting} (h : Keeps A b R) (shape : Reduced k R)
    (done : Reduction.stage strategy k R = .ok R') : Keeps A b R' := by
  obtain ⟨p, q, hp, hq, notTiny, rfl⟩ := brought_of_stage done
  intro x
  rw [h.bring k p q x, (shape.bring hp hq).solves_clear (ne_zero_of_not_isTiny notTiny)]
  rfl

theorem keeps_of_stages {strategy : Pivoting} {k : Nat} {hk : k ≤ n}
    (h : stages (Reduction.stage strategy) (start A b) k hk = .ok R) : Keeps A b R :=
  induction_of_stages (P := fun _ => Keeps A b) (keeps_start A b)
    (fun _ _ _ shape keeps => keeps.stage shape) h

end

end Reduction

/-! ## The solution -/

/-- The entries are put back in order. -/
theorem get_scatter {order : Vector (Fin n) n} (distinct : Function.Injective order.get)
    (y : Vector α n) (k : Fin n) : (scatter order y).get (order.get k) = y.get k :=
  get_foldl_setEntry distinct (f := fun _ k => y.get k) (fun _ _ _ _ => rfl) k

section

variable [Add α] [Sub α] [Mul α] [Div α] [Zero α] [LE α] [DecidableLE α] [LT α] [DecidableLT α]
  [OfScientific α] [Scalar α] {strategy : Pivoting} {A : Dense α n n} {b x : Vector α n}

/-- A reduced system is solved. -/
theorem exists_backSubstitute {R : Reduction α n} (reduced : reduce strategy A b = .ok R) :
    ∃ y, backSubstitute R.matrix R.rhs = .ok y := by
  have shape := Reduction.reduced_of_stages reduced
  exact ⟨_, backSubstitute_eq_ok_iff.mpr ⟨fun i => shape.diagonal i i.isLt, rfl⟩⟩

/-- What an elimination does when it finds a solution. -/
theorem gaussSolve_eq_ok_iff : gaussSolve strategy A b = .ok x ↔
    ∃ R y, reduce strategy A b = .ok R ∧ backSubstitute R.matrix R.rhs = .ok y ∧
      scatter R.order y = x := by
  unfold gaussSolve
  rcases reduce strategy A b with e | R
  · simp
  · rcases substituted : backSubstitute R.matrix R.rhs with cause | y <;>
      simp [substituted, Except.map]

end

variable {K : Type} [Field K] [LinearOrder K] [IsStrictOrderedRing K] {A : Dense K n n}
  {b x : Vector K n} {z : Fin n → K}

/-- An elimination finds the only solution. -/
theorem gaussSolve_exact {strategy : Pivoting} (h : gaussSolve strategy A b = .ok x) :
    Solves A b.get z ↔ z = x.get := by
  obtain ⟨R, y, reduced, substituted, rfl⟩ := gaussSolve_eq_ok_iff.mp h
  have shape := Reduction.reduced_of_stages reduced
  -- In the order of the unknowns the solution of the reduced system is what is put back.
  have back : (scatter R.order y).get ∘ R.order.get = y.get := funext (get_scatter shape.order y)
  rw [Reduction.keeps_of_stages reduced,
    solves_backSubstitute (fun i j => shape.cleared i j j.isLt) substituted, ← back]
  exact (Finite.surjective_of_injective shape.order).injective_comp_right.eq_iff

end EquationSolver.Linear
