import EquationSolver.Proofs.Linear.Verdict

/-!
# The growth of the entries

A strategy that searches for its pivot takes one that no entry it looked at exceeds. The multiple of
the pivot row that is taken from a row below is then at most the pivot row itself, so that a stage
at most doubles what bounds the entries, and a row is worked on by as many stages as there are rows
above it. Under full pivoting nothing in the pivot row exceeds the pivot either; later exchanges of
columns reorder what stands right of it and no more.

## Main definitions

* `largestModulus`: the largest modulus of some numbers
* `Reduction.Leading`: no entry that was looked at exceeds the pivot of a stage
* `Reduction.GrownTo`: the bounds that the entries are within after some stages
* `Reduction.LeadsRows`: in the rows done nothing right of the pivot exceeds it

## Main results

* `Reduction.leading_of_stage`: what a stage that searches brings to the diagonal
* `Reduction.GrownTo.stage`, `Reduction.LeadsRows.stage`: what a stage keeps
* `reduce_growth`: the bounds at the end
-/

namespace EquationSolver.Linear

open Finset

variable {n : Nat} {K : Type} [Field K] [LinearOrder K]

/-- The largest modulus of some numbers, and zero if there are none. -/
def largestModulus {ι : Type} [Fintype ι] (f : ι → K) : K := univ.fold max 0 fun i => |f i|

theorem le_largestModulus {ι : Type} [Fintype ι] (f : ι → K) (i : ι) : |f i| ≤ largestModulus f :=
  (le_fold_max _).mpr (.inr ⟨i, mem_univ i, le_rfl⟩)

/-! ## The pivot of a stage -/

/-- The exchange of columns that a strategy makes leaves it in the columns that it searched. -/
theorem Pivoting.searches_exchange {strategy : Pivoting} {k q j : Fin n} (hq : k ≤ q)
    (unmoved : strategy ≠ .full → q = k) (h : strategy.Searches k j) :
    strategy.Searches k (exchange k q j) := by
  cases strategy with
  | natural => rwa [unmoved (by decide), exchange_self]
  | column => rwa [unmoved (by decide), exchange_self]
  | full => exact (le_exchange_iff hq).mpr h

namespace Reduction

variable {A : Dense K n n} {b : Vector K n} {R R' : Reduction K n} {strategy : Pivoting}
  {k p q : Fin n} {a c : K}

/-- No entry that a strategy looks at in stage `k` exceeds the one on the diagonal. -/
def Leading (strategy : Pivoting) (k : Fin n) (R : Reduction K n) : Prop :=
  ∀ i j, k ≤ i → strategy.Searches k j → |R.matrix i j| ≤ |R.matrix k k|

/-- A stage that searches for its pivot brings one to the diagonal that leads, wherever the entries
that were looked at stand after the exchanges. -/
theorem leading_of_stage (searching : strategy ≠ .natural)
    (done : Reduction.stage strategy k R = .ok R') :
    ∃ p q, k ≤ p ∧ k ≤ q ∧ ¬ IsTiny ((R.bring k p q).matrix k k) ∧
      Leading strategy k (R.bring k p q) ∧ (R.bring k p q).clear k = R' := by
  obtain ⟨p, q, pivot, notTiny, cleared⟩ := stage_eq_ok_iff.mp done
  have left := strategy.le_pivot R.matrix k
  have unmoved (notFull : strategy ≠ .full) := Pivoting.pivot_snd notFull R.matrix k
  have largest (i j : Fin n) (hi : k ≤ i) (hj : strategy.Searches k j) :=
    Pivoting.modulus_le_pivot searching R.matrix hi hj
  -- The exchanges put the pivot in place `k, k`, and the entries that were looked at behind it.
  rw [pivot] at left unmoved largest
  refine ⟨p, q, left.1, left.2, ?_, fun i j hi hj => ?_, cleared⟩
  · rwa [bring_matrix, exchange_left, exchange_left]
  · rw [bring_matrix, bring_matrix, exchange_left, exchange_left]
    exact largest _ _ ((le_exchange_iff left.1).mpr hi)
      (Pivoting.searches_exchange left.2 unmoved hj)

/-! ## The pivot rows -/

/-- In the first `k` rows nothing right of the pivot exceeds it. -/
def LeadsRows (k : Nat) (R : Reduction K n) : Prop :=
  ∀ i j : Fin n, (i : Nat) < k → i ≤ j → |R.matrix i j| ≤ |R.matrix i i|

/-- An exchange behind the rows done reorders what stands right of their pivots. -/
theorem LeadsRows.bring (h : LeadsRows k R) (hp : k ≤ p) (hq : k ≤ q) :
    LeadsRows k (R.bring k p q) := by
  intro i j hi hj
  have done : i < k := hi
  rw [bring_matrix, bring_matrix, exchange_of_lt hp done, exchange_of_lt hq done]
  apply h i _ hi
  -- The column that comes to place `j` stood right of the diagonal of row `i` before.
  by_cases before : j < k
  · rwa [exchange_of_lt hq before]
  · exact done.le.trans ((le_exchange_iff hq).mpr (not_lt.mp before))

theorem LeadsRows.stage (h : LeadsRows k R) (done : Reduction.stage .full k R = .ok R') :
    LeadsRows (k + 1) R' := by
  obtain ⟨p, q, hp, hq, -, leading, rfl⟩ := leading_of_stage (by decide) done
  intro i j hi hj
  rw [clear_of_le _ (Nat.le_of_lt_succ hi), clear_of_le _ (Nat.le_of_lt_succ hi)]
  rcases lt_or_eq_of_lt_succ hi with before | rfl
  · exact h.bring hp hq i j before hj
  · -- The pivot row was the first of those that were searched.
    exact leading i j le_rfl hj

theorem leadsRows_of_stages {k : Nat} {hk : k ≤ n}
    (h : stages (Reduction.stage .full) (start A b) k hk = .ok R) : LeadsRows k R :=
  stages_induction (P := LeadsRows) (fun _ _ before => absurd before (Nat.not_lt_zero _))
    (fun _ _ _ => LeadsRows.stage) k hk R h

/-! ## The bounds -/

/-- The bounds after the first `k` stages: in each row every stage before its own doubles them. -/
structure GrownTo (a c : K) (k : Nat) (R : Reduction K n) : Prop where
  /-- Of the matrix. -/
  matrix : ∀ i j : Fin n, |R.matrix i j| ≤ 2 ^ min (i : Nat) k * a
  /-- Of the right-hand side. -/
  rhs : ∀ i : Fin n, |R.rhs.get i| ≤ 2 ^ min (i : Nat) k * c

theorem grownTo_start (matrix : ∀ i j, |A i j| ≤ a) (rhs : ∀ i, |b.get i| ≤ c) :
    GrownTo a c 0 (start A b) := by
  constructor
  · intro i j
    simpa [start] using matrix i j
  · intro i
    simpa [start] using rhs i

/-- Rows that are exchanged have the same bound. -/
theorem GrownTo.bring (h : GrownTo a c k R) (hp : k ≤ p) : GrownTo a c k (R.bring k p q) := by
  -- Only rows from `k` on are exchanged, and these were all doubled `k` times.
  have bound (i : Fin n) : min (i : Nat) k = min (exchange k p i : Nat) k := by
    by_cases hi : i < k
    · rw [exchange_of_lt hp hi]
    · have behind : (k : Nat) ≤ i := not_lt.mp hi
      have behind' : (k : Nat) ≤ exchange k p i := (le_exchange_iff hp).mpr (not_lt.mp hi)
      rw [min_eq_right behind, min_eq_right behind']
  constructor
  · intro i j
    rw [bring_matrix, bound]
    exact h.matrix _ _
  · intro i
    rw [Reduction.bring, get_exchangeEntries, bound]
    exact h.rhs _

variable [IsStrictOrderedRing K]

/-- What stage `k` makes of an entry `x` of row `i` when it takes at most the entry `y` of the pivot
row from it. -/
theorem abs_le_of_taken {i : Fin n} {x x' y f m : K} (hx : |x| ≤ 2 ^ min (i : Nat) k * m)
    (hy : |y| ≤ 2 ^ min (k : Nat) k * m) (small : k < i → |f| ≤ 1)
    (taken : x' = if k < i then x - f * y else x) : |x'| ≤ 2 ^ min (i : Nat) (k + 1) * m := by
  rw [taken]
  split
  · rename_i below
    have behind : (k : Nat) + 1 ≤ i := below
    rw [min_eq_right (Nat.le_of_succ_le behind)] at hx
    rw [min_self] at hy
    rw [min_eq_right behind]
    calc |x - f * y|
      _ ≤ |x| + |f * y| := abs_sub _ _
      _ = |x| + |f| * |y| := by rw [abs_mul]
      _ ≤ |x| + |y| := by
        gcongr
        exact mul_le_of_le_one_left (abs_nonneg y) (small below)
      _ ≤ 2 ^ (k : Nat) * m + 2 ^ (k : Nat) * m := add_le_add hx hy
      _ = 2 ^ ((k : Nat) + 1) * m := by rw [pow_succ', mul_assoc, two_mul]
  · rename_i above
    have before : (i : Nat) ≤ k := not_lt.mp above
    rwa [min_eq_left (Nat.le_succ_of_le before), ← min_eq_left before]

/-- Where the pivot leads its column, the multiples that are taken are at most the pivot row. -/
theorem GrownTo.clear (h : GrownTo a c k R) (shape : Reduced k R) (pivot : R.matrix k k ≠ 0)
    (leading : ∀ i, k ≤ i → |R.matrix i k| ≤ |R.matrix k k|) :
    GrownTo a c (k + 1) (R.clear k) := by
  have small (i : Fin n) (below : k < i) : |R.factor k i| ≤ 1 := by
    rw [factor, abs_div]
    exact div_le_one_of_le₀ (leading i below.le) (abs_nonneg _)
  constructor
  · intro i j
    refine abs_le_of_taken (h.matrix i j) (h.matrix k j) (small i) ?_
    by_cases below : k < i
    · rw [if_pos below, shape.clear_row pivot below]
    · rw [if_neg below, clear_of_le R (not_lt.mp below)]
  · intro i
    exact abs_le_of_taken (h.rhs i) (h.rhs k) (small i) (get_rhs_clear R k i)

theorem GrownTo.stage (searching : strategy ≠ .natural) (h : GrownTo a c k R) (shape : Reduced k R)
    (done : Reduction.stage strategy k R = .ok R') : GrownTo a c (k + 1) R' := by
  obtain ⟨p, q, hp, hq, notTiny, leading, rfl⟩ := leading_of_stage searching done
  exact (h.bring hp).clear (shape.bring hp hq) (ne_zero_of_not_isTiny notTiny) fun i hi =>
    leading i k hi (strategy.searches_self k)

theorem grownTo_of_stages (searching : strategy ≠ .natural) (matrix : ∀ i j, |A i j| ≤ a)
    (rhs : ∀ i, |b.get i| ≤ c) {k : Nat} {hk : k ≤ n}
    (h : stages (Reduction.stage strategy) (start A b) k hk = .ok R) : GrownTo a c k R :=
  induction_of_stages (grownTo_start matrix rhs)
    (fun _ _ _ shape grown => grown.stage searching shape) h

end Reduction

/-- **Growth under a search for the pivot.** With the largest entry of the column or of the rest of
the matrix as its pivot, an elimination leaves row `i` of the matrix and of the right-hand side
within `2 ^ i` times the largest modulus it was given. Under full pivoting no entry of a row exceeds
the one on the diagonal. -/
theorem reduce_growth [IsStrictOrderedRing K] (strategy : Pivoting)
    (searching : strategy ≠ .natural) (A : Dense K n n) (b : Vector K n) (R : Reduction K n)
    (reduced : reduce strategy A b = .ok R) :
    (∀ i j : Fin n, |R.matrix i j| ≤
      2 ^ (i : Nat) * largestModulus fun p : Fin n × Fin n => A p.1 p.2) ∧
    (∀ i : Fin n, |R.rhs.get i| ≤ 2 ^ (i : Nat) * largestModulus b.get) ∧
    (strategy = .full → ∀ k j, k ≤ j → |R.matrix k j| ≤ |R.matrix k k|) := by
  have grown := Reduction.grownTo_of_stages searching
    (fun i j => le_largestModulus (fun p : Fin n × Fin n => A p.1 p.2) (i, j))
    (le_largestModulus b.get) reduced
  refine ⟨fun i j => ?_, fun i => ?_, ?_⟩
  · have bound := grown.matrix i j
    rwa [min_eq_left i.isLt.le] at bound
  · have bound := grown.rhs i
    rwa [min_eq_left i.isLt.le] at bound
  · rintro rfl k j right
    exact Reduction.leadsRows_of_stages reduced k j k.isLt right

/-- A system whose last row is doubled by every stage. -/
def doubledRow : Dense ℚ 3 3 × Vector ℚ 3 :=
  (⟨#v[#v[1, 0, 1], #v[-1, 1, 1], #v[-1, -1, 1]]⟩, #v[1, 1, 1])

theorem reduce_growth_doubledRow :
    (∃ R, reduce .column doubledRow.1 doubledRow.2 = .ok R ∧ R.matrix 2 2 = 4 ∧
      R.rhs.get 2 = 4 ∧ |R.matrix 2 2| ≤ 2 ^ 2 * 1 ∧ |R.rhs.get 2| ≤ 2 ^ 2 * 1) ∧
    ∃ R, reduce .full doubledRow.1 doubledRow.2 = .ok R ∧ ∀ j, |R.matrix 0 j| ≤ |R.matrix 0 0| := by
  have largest : largestModulus (fun p : Fin 3 × Fin 3 => doubledRow.1 p.1 p.2) = 1 ∧
      largestModulus doubledRow.2.get = 1 := by
    decide +kernel
  have last : (reduce .column doubledRow.1 doubledRow.2).toOption.map
      (fun R => (R.matrix 2 2, R.rhs.get 2)) = some (4, 4) := by
    decide +kernel
  have ends : (reduce .full doubledRow.1 doubledRow.2).toOption.isSome = true := by decide +kernel
  constructor
  · match reduced : reduce .column doubledRow.1 doubledRow.2 with
    | .error e => rw [reduced] at last; cases last
    | .ok R =>
      rw [reduced] at last
      obtain ⟨matrix, rhs⟩ := Prod.mk.inj (Option.some.inj last)
      obtain ⟨entries, values, -⟩ := reduce_growth .column (by decide) _ _ R reduced
      have entry := entries 2 2
      have value := values 2
      rw [largest.1] at entry
      rw [largest.2] at value
      exact ⟨R, rfl, matrix, rhs, entry, value⟩
  · match reduced : reduce .full doubledRow.1 doubledRow.2 with
    | .error e => rw [reduced] at ends; cases ends
    | .ok R =>
      obtain ⟨-, -, leads⟩ := reduce_growth .full (by decide) _ _ R reduced
      exact ⟨R, rfl, fun j => leads rfl 0 j (Fin.zero_le j)⟩

end EquationSolver.Linear
