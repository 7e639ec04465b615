import EquationSolver.Linear.Factorization
import EquationSolver.Proofs.Linear.Elimination

/-!
# What a factorization keeps

A partly factored matrix holds two: the multipliers of the columns done, below the diagonal, and the
reduced matrix, elsewhere. In exact arithmetic the reduced matrix, with the multiples of its rows
added back, stays the given matrix with its rows in the order reached. At the end this says that
the product of the factors is the given matrix in that order.

## Main definitions

* `Factoring.multiplier`, `Factoring.reduced`: the two matrices in a partly factored one
* `Factoring.Ordered`: the order of the rows loses none
* `Factoring.Splits`: a partly factored matrix makes up the given one
* `UnitLaws`: what the shape of the lower factor asks of an arithmetic

## Main results

* `lower_eq_zero`, `upper_eq_zero`, `not_isTiny_upper`: the shape of the factors in any arithmetic
* `lower_mul_upper`: the product of the factors
* `luSolve_exact`: a factorization finds the only solution
-/

namespace EquationSolver.Linear

open Finset

variable {α : Type} {n : Nat}

namespace Factoring

/-! ## One stage -/

@[simp] theorem bring_combined (F : Factoring α n) (k p i j : Fin n) :
    (F.bring k p).combined i j = F.combined (exchange k p i) j := by
  simp [bring]

@[simp] theorem get_order_bring (F : Factoring α n) (k p i : Fin n) :
    (F.bring k p).order.get i = F.order.get (exchange k p i) := by
  simp [bring]

theorem bring_self (F : Factoring α n) (i : Fin n) : F.bring i i = F := by
  simp [bring, exchangesAt]

section

variable [Sub α] [Mul α] [Div α]

/-- The rows up to the pivot row stay as they are. -/
theorem divide_of_le (F : Factoring α n) {k i : Fin n} (h : i ≤ k) (j : Fin n) :
    (F.divide k).combined i j = F.combined i j := by
  simp [divide, h.not_gt]

theorem divide_of_lt (F : Factoring α n) {k j : Fin n} (h : j < k) (i : Fin n) :
    (F.divide k).combined i j = F.combined i j := by
  simp [divide, h]

theorem divide_self (F : Factoring α n) {k i : Fin n} (h : k < i) :
    (F.divide k).combined i k = F.factor k i := by
  simp [divide, h]

/-- A multiple of the pivot row is taken from every row below it. -/
theorem divide_of_gt (F : Factoring α n) {k i j : Fin n} (hi : k < i) (hj : k < j) :
    (F.divide k).combined i j = F.combined i j - F.factor k i * F.combined k j := by
  simp [divide, hi, hj.not_gt, hj.ne']

variable [LE α] [DecidableLE α] [LT α] [DecidableLT α] [OfScientific α] [Scalar α]

/-- What a stage does when it does not break down. -/
theorem stage_eq_ok_iff {k : Fin n} {F F' : Factoring α n} :
    stage k F = .ok F' ↔ ∃ p, Pivoting.natural.pivot F.combined k = (p, k) ∧
      ¬ IsTiny (F.combined p k) ∧ (F.bring k p).divide k = F' := by
  unfold stage Pivoting.pivot
  dsimp only
  generalize (if IsTiny (F.combined k k) then largestInColumn F.combined k else k) = p
  split
  · rename_i tiny
    constructor
    · intro h
      cases h
    · rintro ⟨_, pivot, notTiny, -⟩
      cases pivot
      exact absurd tiny notTiny
  · rename_i notTiny
    constructor
    · intro h
      exact ⟨p, rfl, notTiny, Except.ok.inj h⟩
    · rintro ⟨_, pivot, -, rfl⟩
      cases pivot
      rfl

/-- A stage brings a pivot that does not count as zero to the diagonal, from the rows that are left,
and divides its column. -/
theorem brought_of_stage {k : Fin n} {F F' : Factoring α n} (h : stage k F = .ok F') :
    ∃ p, k ≤ p ∧ ¬ IsTiny ((F.bring k p).combined k k) ∧ (F.bring k p).divide k = F' := by
  obtain ⟨p, pivot, notTiny, divided⟩ := stage_eq_ok_iff.mp h
  have left := (Pivoting.natural.le_pivot F.combined k).1
  rw [pivot] at left
  refine ⟨p, left, ?_, divided⟩
  rwa [bring_combined, exchange_left]

end

/-! ## The order of the rows -/

section

variable [LT α] [OfScientific α] [Scalar α]

/-- The rows after the first `k` stages. -/
structure Ordered (k : Nat) (F : Factoring α n) : Prop where
  /-- No two rows come from the same row. -/
  order : Function.Injective F.order.get
  /-- The diagonal entries of those done do not count as zero. -/
  diagonal : ∀ i : Fin n, (i : Nat) < k → ¬ IsTiny (F.combined i i)

theorem ordered_start (A : Dense α n n) : Ordered 0 (start A) where
  order i j h := by simpa [start] using h
  diagonal _ h := absurd h (Nat.not_lt_zero _)

variable [Sub α] [Mul α] [Div α] [LE α] [DecidableLE α] [DecidableLT α]

theorem Ordered.stage {k : Fin n} {F F' : Factoring α n} (h : Ordered k F)
    (done : Factoring.stage k F = .ok F') : Ordered (k + 1) F' := by
  obtain ⟨p, hp, notTiny, rfl⟩ := brought_of_stage done
  constructor
  · intro i j same
    change (F.bring k p).order.get i = (F.bring k p).order.get j at same
    rw [get_order_bring, get_order_bring] at same
    exact (exchange_bijective k p).injective (h.order same)
  · intro i hi
    rw [divide_of_le _ (Nat.lt_succ_iff.mp hi)]
    rcases lt_or_eq_of_lt_succ hi with before | rfl
    · rw [bring_combined, exchange_of_lt hp before]
      exact h.diagonal i before
    · exact notTiny

theorem ordered_of_factorStages [Zero α] [One α] [Add α] {A : Dense α n n} {F : Factoring α n}
    (h : factorStages A = .ok F) : Ordered n F :=
  stages_induction (ordered_start A) (fun _ _ _ => Ordered.stage) n le_rfl F h

end

/-! ## The two matrices in one -/

section

variable [Zero α]

/-- The multiple of row `l` that was taken from row `i` in the first `k` stages. -/
def multiplier (F : Factoring α n) (k : Nat) (i l : Fin n) : α :=
  if l < i ∧ l < k then F.combined i l else 0

/-- The matrix that the first `k` stages reduced. -/
def reduced (F : Factoring α n) (k : Nat) (i j : Fin n) : α :=
  if i ≤ j ∨ k ≤ j then F.combined i j else 0

theorem multiplier_of_not_lt (F : Factoring α n) {k i l : Fin n} (h : ¬ l < k) :
    F.multiplier k i l = 0 := if_neg fun left => h left.2

/-- An exchange of rows behind those done takes the multipliers with the rows. -/
theorem multiplier_bring (F : Factoring α n) {k p : Fin n} (hp : k ≤ p) (i l : Fin n) :
    (F.bring k p).multiplier k i l = F.multiplier k (exchange k p i) l := by
  have left : l < i ∧ (l : Nat) < k ↔ l < exchange k p i ∧ (l : Nat) < k := by
    by_cases hi : i < k
    · rw [exchange_of_lt hp hi]
    · -- Rows from `k` on have a multiplier for every column done, wherever they stand.
      have hi' : ¬ exchange k p i < k := by rwa [exchange_lt_iff hp]
      apply and_congr_left
      intro hl
      exact iff_of_true (lt_of_lt_of_le hl (not_lt.mp hi)) (lt_of_lt_of_le hl (not_lt.mp hi'))
  simp only [multiplier, left, bring_combined]

/-- An exchange of rows behind those done exchanges the rows of the reduced matrix. -/
theorem reduced_bring (F : Factoring α n) {k p : Fin n} (hp : k ≤ p) (i j : Fin n) :
    (F.bring k p).reduced k i j = F.reduced k (exchange k p i) j := by
  have right : i ≤ j ∨ (k : Nat) ≤ j ↔ exchange k p i ≤ j ∨ (k : Nat) ≤ j := by
    by_cases hi : i < k
    · rw [exchange_of_lt hp hi]
    · -- Rows from `k` on are reduced in the columns from `k` on, wherever they stand.
      have hi' : ¬ exchange k p i < k := by rwa [exchange_lt_iff hp]
      apply or_congr_left'
      intro hj
      exact iff_of_false (fun h => hj ((not_lt.mp hi).trans h))
        fun h => hj ((not_lt.mp hi').trans h)
  simp only [reduced, right, bring_combined]

variable [Sub α] [Mul α] [Div α]

theorem multiplier_divide_of_le (F : Factoring α n) {k i : Fin n} (h : i ≤ k) (l : Fin n) :
    (F.divide k).multiplier (k + 1) i l = F.multiplier k i l := by
  have left : l < i ∧ (l : Nat) < k + 1 ↔ l < i ∧ (l : Nat) < k := by
    apply and_congr_right
    intro hl
    exact iff_of_true (Nat.lt_succ_of_lt (hl.trans_le h)) (hl.trans_le h)
  simp only [multiplier, left, divide_of_le F h]

theorem reduced_divide_of_le (F : Factoring α n) {k i : Fin n} (h : i ≤ k) (j : Fin n) :
    (F.divide k).reduced (k + 1) i j = F.reduced k i j := by
  have right : i ≤ j ∨ (k : Nat) + 1 ≤ j ↔ i ≤ j ∨ (k : Nat) ≤ j := by
    apply or_congr_right'
    intro hj
    exact iff_of_false (fun hk => hj (h.trans (Nat.le_of_succ_le hk))) fun hk => hj (h.trans hk)
  simp only [reduced, right, divide_of_le F h]

end

/-! ## The product of the two matrices -/

section

variable {K : Type} [Field K] {A : Dense K n n} {F F' : Factoring K n} {k : Fin n}

theorem multiplier_divide_of_gt (F : Factoring K n) {i : Fin n} (h : k < i) (l : Fin n) :
    (F.divide k).multiplier (k + 1) i l =
      F.multiplier k i l + if l = k then F.factor k i else 0 := by
  rcases lt_trichotomy l k with done | rfl | later
  · simp [multiplier, divide_of_lt F done, done, done.trans h, Nat.lt_succ_of_lt done, done.ne]
  · simp [multiplier, divide_self F h, h]
  · have hl : ¬ (l : Nat) < k + 1 := Nat.not_lt.mpr later
    simp [multiplier, hl, later.not_gt, later.ne']

theorem reduced_divide_of_gt (F : Factoring K n) (pivot : F.combined k k ≠ 0) {i : Fin n}
    (h : k < i) (j : Fin n) : (F.divide k).reduced (k + 1) i j =
      F.reduced k i j - F.factor k i * F.reduced k k j := by
  rcases lt_trichotomy j k with done | rfl | later
  · have hj : ¬ (k : Nat) + 1 ≤ j := Nat.not_le.mpr (Nat.lt_succ_of_lt done)
    simp [reduced, hj, done.not_ge, (done.trans h).not_ge]
  · simp [reduced, h.not_ge, factor, div_mul_cancel₀ _ pivot]
  · have hj : (k : Nat) + 1 ≤ j := later
    simp [reduced, hj, later.le, divide_of_gt F h later]

/-- The rows of the reduced matrix, with the multiples of other rows added back, are the rows of the
given matrix in the order reached. -/
def Splits (A : Dense K n n) (k : Nat) (F : Factoring K n) : Prop :=
  ∀ i j, F.reduced k i j + ∑ l, F.multiplier k i l * F.reduced k l j = A (F.order.get i) j

theorem splits_start (A : Dense K n n) : Splits A 0 (start A) := by
  intro i j
  simp [reduced, multiplier, start]

/-- An exchange of rows behind those done keeps the product. -/
theorem Splits.bring {p : Fin n} (h : Splits A k F) (hp : k ≤ p) : Splits A k (F.bring k p) := by
  intro i j
  have earlier (l : Fin n) (hl : ¬ l < k) : F.multiplier k (exchange k p i) l = 0 :=
    F.multiplier_of_not_lt hl
  simp only [reduced_bring F hp, multiplier_bring F hp]
  rw [sum_multiples_exchange hp earlier (fun l => F.reduced k l j), get_order_bring]
  exact h _ j

/-- What a stage takes from the reduced matrix it adds to the multipliers. -/
theorem Splits.divide (h : Splits A k F) (pivot : F.combined k k ≠ 0) :
    Splits A (k + 1) (F.divide k) := by
  intro i j
  have order : (F.divide k).order = F.order := rfl
  rw [order, ← h i j]
  have earlier (i l : Fin n) (hl : ¬ l < k) : F.multiplier k i l = 0 := F.multiplier_of_not_lt hl
  refine add_sum_multiples_clear (F.factor k) earlier (fun i j => ?_) (fun i l => ?_) i j
  · by_cases below : k < i
    · rw [if_pos below, reduced_divide_of_gt F pivot below]
    · rw [if_neg below, reduced_divide_of_le F (not_lt.mp below)]
  · by_cases below : k < i
    · rw [multiplier_divide_of_gt F below]
      simp only [below, true_and]
    · rw [multiplier_divide_of_le F (not_lt.mp below), if_neg fun left => below left.1, add_zero]

variable [LinearOrder K] [IsStrictOrderedRing K]

theorem Splits.stage (h : Splits A k F) (done : Factoring.stage k F = .ok F') :
    Splits A (k + 1) F' := by
  obtain ⟨p, hp, notTiny, rfl⟩ := brought_of_stage done
  exact (h.bring hp).divide (ne_zero_of_not_isTiny notTiny)

theorem splits_of_factorStages (h : factorStages A = .ok F) : Splits A n F :=
  stages_induction (splits_start A) (fun _ _ _ => Splits.stage) n le_rfl F h

end

end Factoring

/-! ## The factors -/

section

variable [Add α] [Sub α] [Mul α] [Div α] [Zero α] [One α] [LE α] [DecidableLE α] [LT α]
  [DecidableLT α] [OfScientific α] [Scalar α] {A : Dense α n n}

theorem factorize_eq_ok_iff {F : LU α n} :
    factorize A = .ok F ↔ ∃ G, factorStages A = .ok G ∧ G.factors = F := by
  unfold factorize
  split <;> simp [*]

/-- A factorization that breaks down says at which stage. -/
theorem exists_factor_of_factorize {cause : Singularity} (h : factorize A = .error cause) :
    ∃ k, cause = .factor k := by
  unfold factorize at h
  split at h
  · exact ⟨_, (Except.error.inj h).symm⟩
  · cases h

/-- What a solve by factorization does when it finds a solution. -/
theorem luSolve_eq_ok_iff {b x : Vector α n} : luSolve A b = .ok x ↔
    ∃ F y, factorize A = .ok F ∧
      forwardSubstitute F.lower (.ofFn (b.get ∘ F.order.get)) = .ok y ∧
      backSubstitute F.upper y = .ok x := by
  unfold luSolve
  rcases factorize A with e | F
  · simp [bind, Except.bind]
  · change forwardSubstitute F.lower (.ofFn (b.get ∘ F.order.get)) >>= backSubstitute F.upper =
      .ok x ↔ _
    rcases forward : forwardSubstitute F.lower (.ofFn (b.get ∘ F.order.get)) with e | y <;>
      simp [bind, Except.bind, forward]

end

/-! ## The shape of the factors -/

section

variable [Add α] [Zero α] [One α] [LT α] [OfScientific α] [Scalar α]

variable (α) in
/-- The laws of zero and one that the shape of the lower factor rests on. -/
class UnitLaws : Prop where
  /-- An entry above the diagonal. -/
  zero_add_zero : (0 : α) + 0 = 0
  /-- An entry on the diagonal. -/
  zero_add_one : (0 : α) + 1 = 1
  /-- The unit does not count as zero. -/
  not_isTiny_one : ¬ IsTiny (1 : α)

variable [Sub α] [Mul α] [Div α] [LE α] [DecidableLE α] [DecidableLT α] {A : Dense α n n}
  {F : LU α n}

theorem lower_eq_zero [UnitLaws α] (h : factorize A = .ok F) {i j : Fin n} (right : i < j) :
    F.lower i j = 0 := by
  obtain ⟨G, -, rfl⟩ := factorize_eq_ok_iff.mp h
  rw [Factoring.factors, Dense.of_apply, if_neg right.not_gt, if_neg right.ne]
  exact UnitLaws.zero_add_zero

theorem lower_self [UnitLaws α] (h : factorize A = .ok F) (i : Fin n) : F.lower i i = 1 := by
  obtain ⟨G, -, rfl⟩ := factorize_eq_ok_iff.mp h
  rw [Factoring.factors, Dense.of_apply, if_neg (lt_irrefl i), if_pos rfl]
  exact UnitLaws.zero_add_one

theorem upper_eq_zero (h : factorize A = .ok F) {i j : Fin n} (left : j < i) :
    F.upper i j = 0 := by
  obtain ⟨G, -, rfl⟩ := factorize_eq_ok_iff.mp h
  rw [Factoring.factors, Dense.of_apply, if_neg left.not_ge]

theorem not_isTiny_upper (h : factorize A = .ok F) (i : Fin n) : ¬ IsTiny (F.upper i i) := by
  obtain ⟨G, done, rfl⟩ := factorize_eq_ok_iff.mp h
  rw [Factoring.factors, Dense.of_apply, if_pos le_rfl]
  exact (Factoring.ordered_of_factorStages done).diagonal i i.isLt

theorem order_bijective (h : factorize A = .ok F) : Function.Bijective F.order.get := by
  obtain ⟨G, done, rfl⟩ := factorize_eq_ok_iff.mp h
  exact Finite.injective_iff_bijective.mp (Factoring.ordered_of_factorStages done).order

/-- A system with the lower factor is solved, since it has ones on its diagonal. -/
theorem exists_forwardSubstitute [UnitLaws α] (h : factorize A = .ok F) (c : Vector α n) :
    ∃ y, forwardSubstitute F.lower c = .ok y := by
  refine ⟨_, forwardSubstitute_eq_ok_iff.mpr ⟨fun i => ?_, rfl⟩⟩
  rw [lower_self h]
  exact UnitLaws.not_isTiny_one

end

section

variable {K : Type} [Field K] [LinearOrder K] [IsStrictOrderedRing K] {A : Dense K n n}
  {F : LU K n} {b x : Vector K n} {z : Fin n → K}

instance unitLaws_field : UnitLaws K where
  zero_add_zero := add_zero 0
  zero_add_one := zero_add 1
  not_isTiny_one := by
    change ¬ |(1 : K)| < 1e-12
    rw [abs_one]
    norm_num

/-- The product of the factors is the given matrix with its rows in order. -/
theorem lower_mul_upper (h : factorize A = .ok F) (i j : Fin n) :
    ∑ l, F.lower i l * F.upper l j = A (F.order.get i) j := by
  obtain ⟨G, done, rfl⟩ := factorize_eq_ok_iff.mp h
  -- The factors are the multipliers with ones on the diagonal, and the matrix reduced to the end.
  have lower (l : Fin n) : G.factors.lower i l = G.multiplier n i l + if i = l then 1 else 0 := by
    simp [Factoring.factors, Factoring.multiplier]
  have upper (l : Fin n) : G.factors.upper l j = G.reduced n l j := by
    simp [Factoring.factors, Factoring.reduced, j.isLt.not_ge]
  simp only [lower, upper, add_mul, sum_add_distrib, ite_mul, one_mul, zero_mul, sum_ite_eq,
    mem_univ, if_true]
  rw [add_comm]
  exact Factoring.splits_of_factorStages done i j

/-- A factorization finds the only solution. -/
theorem luSolve_exact (h : luSolve A b = .ok x) : Solves A b.get z ↔ z = x.get := by
  obtain ⟨F, y, factored, forward, back⟩ := luSolve_eq_ok_iff.mp h
  have reordered : (Vector.ofFn (b.get ∘ F.order.get)).get = b.get ∘ F.order.get :=
    funext (get_ofFn _)
  have lower (w : Fin n → K) : Solves F.lower (b.get ∘ F.order.get) w ↔ w = y.get := by
    rw [← reordered]
    exact solves_forwardSubstitute (fun i j => lower_eq_zero factored) forward
  have upper (w : Fin n → K) : Solves F.upper y.get w ↔ w = x.get :=
    solves_backSubstitute (fun i j => upper_eq_zero factored) back
  rw [← solves_reorder (order_bijective factored)]
  exact solves_mul (lower_mul_upper factored) lower upper

end

end EquationSolver.Linear
