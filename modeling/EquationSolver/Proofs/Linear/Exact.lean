import EquationSolver.Linear.Dense
import Mathlib.Algebra.BigOperators.Fin
import Mathlib.Algebra.Order.Field.Basic
import Mathlib.Algebra.Order.Group.Abs
import Mathlib.Tactic.NormNum

/-!
# Exact arithmetic

The solvers run on any type of numbers. Over an ordered field the modulus is the absolute value, no
value is special, and the sums in index order are plain sums. What a system asks of its unknowns can
then be said by equations, and an exchange of rows or of columns keeps it.

## Main definitions

* `exactScalar`: the numbers of an ordered field as scalars
* `ExactRoots`: every positive number is the square of its square root
* `Solves`: the equations of a system

## Main results

* `sum_multiples_exchange`, `add_sum_multiples_clear`: sums of multiples of rows after a stage
* `mulVec_eq_iff_solves`: the product with a vector is the right-hand side when the vector solves
* `solves_exchangeRows`, `solves_exchangeColumns`: the solutions after an exchange
-/

namespace EquationSolver.Linear

open Finset

variable {α : Type} {n : Nat}

theorem mapError_eq_ok_iff {ε ε' β : Type} {f : ε → ε'} {r : Except ε β} {x : β} :
    r.mapError f = .ok x ↔ r = .ok x := by
  cases r <;> simp [Except.mapError]

theorem mapError_eq_error_iff {ε ε' β : Type} {f : ε → ε'} {r : Except ε β} {e' : ε'} :
    r.mapError f = .error e' ↔ ∃ e, r = .error e ∧ f e = e' := by
  cases r <;> simp [Except.mapError]

/-! ## Vectors as functions of indices -/

theorem get_injective : Function.Injective (Vector.get : Vector α n → Fin n → α) := by
  intro v w h
  ext i hi
  exact congrFun h ⟨i, hi⟩

@[simp] theorem exchangeEntries_self (v : Vector α n) (p : Fin n) : exchangeEntries v p p = v := by
  apply get_injective
  funext
  simp

@[simp] theorem exchangeRows_self (A : Dense α n n) (p : Fin n) : A.exchangeRows p p = A := by
  ext
  simp

@[simp] theorem exchangeColumns_self (A : Dense α n n) (p : Fin n) :
    A.exchangeColumns p p = A := by
  ext
  simp

theorem exchange_eq_swap (p q : Fin n) : exchange p q = Equiv.swap p q := by
  funext i
  rw [exchange, Equiv.swap_apply_def]

theorem exchange_bijective (p q : Fin n) : Function.Bijective (exchange p q) := by
  rw [exchange_eq_swap]
  exact (Equiv.swap p q).bijective

@[simp] theorem exchange_left (p q : Fin n) : exchange p q p = q := if_pos rfl

/-- An exchange of indices from `k` on moves none before `k`. -/
theorem exchange_of_lt {k p i : Fin n} (hp : k ≤ p) (hi : i < k) : exchange k p i = i := by
  rw [exchange_eq_swap]
  exact Equiv.swap_apply_of_ne_of_ne hi.ne (hi.trans_le hp).ne

theorem exchange_lt_iff {k p i : Fin n} (hp : k ≤ p) : exchange k p i < k ↔ i < k := by
  constructor
  · -- An index that came to stand before `k` would be moved back by the same exchange.
    intro h
    have same := exchange_of_lt hp h
    rw [exchange_exchange] at same
    rwa [same]
  · intro h
    rwa [exchange_of_lt hp h]

theorem le_exchange_iff {k p i : Fin n} (hp : k ≤ p) : k ≤ exchange k p i ↔ k ≤ i := by
  rw [← not_lt, exchange_lt_iff hp, not_lt]

theorem lt_or_eq_of_lt_succ {i k : Fin n} (h : (i : Nat) < k + 1) : i < k ∨ i = k :=
  (Nat.lt_succ_iff.mp h).lt_or_eq.imp id Fin.ext

/-! ## Scalars -/

section

variable {K : Type} [Field K] [LinearOrder K] [IsStrictOrderedRing K]

/-- The numbers of an ordered field: size is the absolute value and no value is special. -/
instance exactScalar : Scalar K where
  modulus x := |x|
  isNaN _ := false
  isFinite _ := true

/-- A number that does not count as zero is not zero. -/
theorem ne_zero_of_not_isTiny {x : K} (h : ¬ IsTiny x) : x ≠ 0 := by
  rintro rfl
  apply h
  change |(0 : K)| < 1e-12
  rw [abs_zero]
  norm_num

/-- Every positive number is the square of its square root. -/
def ExactRoots (K : Type) [Mul K] [Zero K] [LT K] [SquareRoot K] : Prop :=
  ∀ a : K, 0 < a → squareRoot a * squareRoot a = a

end

/-! ## Sums -/

section

variable {K : Type} [AddCommMonoid K]

theorem sum_eq (f : Fin n → K) : sum f = ∑ j, f j := by
  induction n with
  | zero => rfl
  | succ n ih =>
    rw [sum, Fin.foldl_succ_last, Fin.sum_univ_castSucc, ← ih]
    rfl

theorem sumWhere_eq (p : Fin n → Prop) [DecidablePred p] (f : Fin n → K) :
    sumWhere p f = ∑ j with p j, f j := by
  -- A value that is passed over counts as zero.
  have step : (fun s j => if p j then s + f j else s) = fun s j => s + if p j then f j else 0 := by
    funext s j
    by_cases h : p j
    · rw [if_pos h, if_pos h]
    · rw [if_neg h, if_neg h, add_zero]
  rw [sumWhere, step, sum_filter, ← sum_eq]
  rfl

end

/-! ## Sums of multiples of rows -/

section

variable {K : Type} [CommRing K] {k p : Fin n}

/-- Multiples of rows before `k` stay what they are when rows from `k` on are exchanged. -/
theorem sum_multiples_exchange (hp : k ≤ p) {m : Fin n → K} (earlier : ∀ l, ¬ l < k → m l = 0)
    (f : Fin n → K) : ∑ l, m l * f (exchange k p l) = ∑ l, m l * f l := by
  apply sum_congr rfl
  intro l _
  by_cases hl : l < k
  · rw [exchange_of_lt hp hl]
  · rw [earlier l hl, zero_mul, zero_mul]

/-- What is taken from the rows behind `k` and added to their multiples leaves the sums as they
were, as long as no row from `k` on had a multiple. -/
theorem add_sum_multiples_clear {P P' M M' : Fin n → Fin n → K} (f : Fin n → K)
    (earlier : ∀ i l, ¬ l < k → M i l = 0)
    (cleared : ∀ i j, P' i j = if k < i then P i j - f i * P k j else P i j)
    (added : ∀ i l, M' i l = M i l + if k < i ∧ l = k then f i else 0) (i j : Fin n) :
    P' i j + ∑ l, M' i l * P' l j = P i j + ∑ l, M i l * P l j := by
  have rows (l : Fin n) : M i l * P' l j = M i l * P l j := by
    by_cases hl : l < k
    · rw [cleared, if_neg hl.not_gt]
    · rw [earlier i l hl, zero_mul, zero_mul]
  have pivot : P' k j = P k j := by rw [cleared, if_neg (lt_irrefl k)]
  by_cases hi : k < i
  · simp only [added, add_mul, sum_add_distrib, rows, hi, true_and, ite_mul, zero_mul, sum_ite_eq',
      mem_univ, if_true, pivot]
    rw [cleared, if_pos hi, add_comm (∑ l, _), ← add_assoc, sub_add_cancel]
  · simp only [added, hi, false_and, if_false, add_zero, rows]
    rw [cleared, if_neg hi]

end

/-! ## Systems -/

section

variable {K : Type} [CommRing K]

/-- The equations of a system with a matrix and a right-hand side. -/
def Solves (A : Fin n → Fin n → K) (b x : Fin n → K) : Prop := ∀ i, ∑ j, A i j * x j = b i

theorem mulVec_eq_iff_solves {A : Dense K n n} {b x : Vector K n} :
    A.mulVec x = b ↔ Solves A b.get x.get := by
  rw [← get_injective.eq_iff, funext_iff]
  simp only [Dense.get_mulVec, sum_eq]
  rfl

/-- The equations may be taken in any order. -/
theorem solves_reorder {A : Fin n → Fin n → K} {b x : Fin n → K} {order : Fin n → Fin n}
    (h : Function.Bijective order) :
    Solves (fun i => A (order i)) (b ∘ order) x ↔ Solves A b x := by
  constructor
  · intro solves
    exact h.surjective.forall.mpr solves
  · intro solves i
    exact solves (order i)

/-- An exchange of rows keeps the solutions. -/
theorem solves_exchangeRows {A : Dense K n n} {b : Vector K n} {x : Fin n → K} (p q : Fin n) :
    Solves (A.exchangeRows p q) (exchangeEntries b p q).get x ↔ Solves A b.get x := by
  rw [← solves_reorder (exchange_bijective p q)]
  simp only [Solves, Dense.exchangeRows_apply, get_exchangeEntries, Function.comp_apply,
    exchange_exchange]

/-- An exchange of columns exchanges the unknowns. -/
theorem solves_exchangeColumns {A : Dense K n n} {b x : Fin n → K} (p q : Fin n) :
    Solves (A.exchangeColumns p q) b (x ∘ exchange p q) ↔ Solves A b x := by
  apply forall_congr'
  intro i
  have reorder := Equiv.sum_comp (Equiv.swap p q) fun j => A i j * x j
  rw [← reorder]
  simp only [Dense.exchangeColumns_apply, Function.comp_apply, exchange_eq_swap]

/-- A product is applied in two steps, the second factor first. -/
theorem solves_product_iff {A L U : Fin n → Fin n → K} {b z : Fin n → K}
    (product : ∀ i j, ∑ l, L i l * U l j = A i j) :
    Solves A b z ↔ Solves L b fun l => ∑ j, U l j * z j := by
  apply forall_congr'
  intro i
  have row : ∑ j, A i j * z j = ∑ l, L i l * ∑ j, U l j * z j := by
    calc ∑ j, A i j * z j
      _ = ∑ j, ∑ l, L i l * U l j * z j := sum_congr rfl fun j _ => by
        rw [← product, sum_mul]
      _ = ∑ l, ∑ j, L i l * U l j * z j := sum_comm
      _ = ∑ l, L i l * ∑ j, U l j * z j := sum_congr rfl fun l _ => by
        rw [mul_sum]
        exact sum_congr rfl fun j _ => mul_assoc ..
  rw [row]

/-- The solution of a system whose matrix is a product is found through both factors. -/
theorem solves_mul {A L U : Fin n → Fin n → K} {b x y z : Fin n → K}
    (product : ∀ i j, ∑ l, L i l * U l j = A i j) (lower : ∀ w, Solves L b w ↔ w = y)
    (upper : ∀ z, Solves U y z ↔ z = x) : Solves A b z ↔ z = x := by
  rw [solves_product_iff product, lower, ← upper, funext_iff]
  rfl

end

end EquationSolver.Linear
