import EquationSolver.Proofs.Linear.Exact
import EquationSolver.Proofs.Root.Start
import Mathlib.Algebra.Order.Archimedean.Basic
import Mathlib.Order.Bounds.Basic
import Mathlib.Tactic.Linarith
import Mathlib.Tactic.Ring

/-!
# Bisection in exact numbers

Over the rationals nothing is rounded, and the kept half can be written down for every number of
halvings without running the method. Each is half as wide as the one before and lies inside it, and
as long as no centre is a zero the function changes its sign on it. A run follows these halves, so
it ends at the first centre that is a zero, or after the number of halvings that the tolerance asks
for, or when its budget is spent, whichever comes first.

## Main definitions

* `keptHalf`, `centre`: the part of an interval that is kept after some halvings, and its centre
* `visited`: the records of the first halvings
* `Encloses`: an interval inside another one, on which a function changes its sign

## Main results

* `encloses_keptHalf`: the kept part encloses a change of sign
* `passes_visited`: the iterations that go on
* `bisection_exact`: what a run comes to
-/

namespace EquationSolver.Root

variable (f : ℚ → ℚ) (a b : ℚ)

/-- The part of an interval that is kept after some halvings: the left half if the function changes
its sign there, and the right half otherwise. -/
def keptHalf : ℕ → ℚ × ℚ
  | 0 => (a, b)
  | k + 1 =>
    let (l, r) := keptHalf k
    if f l * f ((l + r) / 2) < 0 then (l, (l + r) / 2) else ((l + r) / 2, r)

/-- The centre of what is kept after `k` halvings, which the next iteration visits. -/
def centre (k : ℕ) : ℚ := ((keptHalf f a b k).1 + (keptHalf f a b k).2) / 2

/-- What is kept after `k` halvings, with the values at its ends. -/
def keptBracket (k : ℕ) : Bracket ℚ :=
  ⟨(keptHalf f a b k).1, f (keptHalf f a b k).1, (keptHalf f a b k).2, f (keptHalf f a b k).2⟩

/-- The records of the first `n` iterations. -/
def visited (n : ℕ) : List (Record ℚ) :=
  (List.range n).map fun k => ⟨k + 1, centre f a b k, f (centre f a b k),
    some (keptHalf f a b k).1, some (keptHalf f a b k).2, some ((b - a) / 2 ^ (k + 1))⟩

/-- An interval of a given width inside another one, on which the function changes its sign. -/
structure Encloses (w l r : ℚ) : Prop where
  /-- The left end is not to the left of the outer one. -/
  left : a ≤ l
  /-- The right end is not to the right of the outer one. -/
  right : r ≤ b
  /-- The distance of the ends. -/
  width : r - l = w
  /-- The values at the ends have opposite signs. -/
  change : f l * f r < 0

/-- The run of bisection on a function that has a value everywhere. -/
def exactRun (t : ℚ) (budget : ℕ) : History ℚ :=
  bisection (fun x => .ok (f x)) t budget (some a) (some b)

variable {f a b} {t : ℚ} {k n budget : ℕ}

/-! ## What is kept -/

theorem keptHalf_succ (f : ℚ → ℚ) (a b : ℚ) (k : ℕ) :
    keptHalf f a b (k + 1) =
      if f (keptHalf f a b k).1 * f (centre f a b k) < 0 then
        ((keptHalf f a b k).1, centre f a b k)
      else (centre f a b k, (keptHalf f a b k).2) := rfl

theorem width_keptHalf (f : ℚ → ℚ) (a b : ℚ) (k : ℕ) :
    (keptHalf f a b k).2 - (keptHalf f a b k).1 = (b - a) / 2 ^ k := by
  induction k with
  | zero => rw [pow_zero, div_one]; rfl
  | succ k ih =>
    have half : (b - a) / 2 ^ (k + 1) = (b - a) / 2 ^ k / 2 := by rw [pow_succ, div_div]
    rw [half, ← ih, keptHalf_succ, centre]
    split
    · ring
    · ring

theorem keptHalf_lt (order : a < b) (k : ℕ) : (keptHalf f a b k).1 < (keptHalf f a b k).2 := by
  have wide : 0 < (b - a) / 2 ^ k := div_pos (sub_pos.mpr order) (by positivity)
  rwa [← width_keptHalf f, sub_pos] at wide

theorem centre_mem (order : a < b) (k : ℕ) :
    centre f a b k ∈ Set.Ioo (keptHalf f a b k).1 (keptHalf f a b k).2 := by
  have := keptHalf_lt (f := f) order k
  rw [centre]
  constructor <;> linarith

theorem keptHalf_within (order : a < b) (k : ℕ) :
    a ≤ (keptHalf f a b k).1 ∧ (keptHalf f a b k).2 ≤ b := by
  induction k with
  | zero => exact ⟨le_rfl, le_rfl⟩
  | succ k ih =>
    obtain ⟨above, below⟩ := centre_mem (f := f) order k
    rw [keptHalf_succ]
    split
    · exact ⟨ih.1, below.le.trans ih.2⟩
    · exact ⟨ih.1.trans above.le, ih.2⟩

/-- The right half changes the sign exactly if the left half does not. -/
theorem change_right_iff {x y z : ℚ} (change : x * z < 0) (away : y ≠ 0) :
    y * z < 0 ↔ ¬ x * y < 0 := by
  have across : (x * y) * (y * z) < 0 := by
    have square : 0 < y ^ 2 := by positivity
    calc (x * y) * (y * z) = (x * z) * y ^ 2 := by ring
      _ < 0 := mul_neg_of_neg_of_pos change square
  rcases mul_neg_iff.mp across with ⟨same, right⟩ | ⟨left, same⟩
  · exact iff_of_true right same.not_gt
  · exact iff_of_false same.not_gt (not_not.mpr left)

/-- As long as no centre is a zero, what is kept encloses a change of sign. -/
theorem encloses_keptHalf (order : a < b) (change : f a * f b < 0)
    (away : ∀ j < k, f (centre f a b j) ≠ 0) :
    Encloses f a b ((b - a) / 2 ^ k) (keptHalf f a b k).1 (keptHalf f a b k).2 := by
  obtain ⟨left, right⟩ := keptHalf_within (f := f) order k
  refine ⟨left, right, width_keptHalf f a b k, ?_⟩
  clear left right
  induction k with
  | zero => exact change
  | succ k ih =>
    have before := ih fun j lt => away j (Nat.lt_succ_of_lt lt)
    rw [keptHalf_succ]
    split
    · assumption
    · exact (change_right_iff before (away k (Nat.lt_succ_self k))).mpr ‹_›

/-! ## One iteration -/

theorem isRunaway_iff {x : ℚ} : IsRunaway x ↔ 10 ^ 12 < |x| := by
  have threshold : (1e12 : ℚ) = 10 ^ 12 := by norm_num
  rw [IsRunaway, threshold]
  exact or_iff_right nofun

theorem halve_keptBracket (f : ℚ → ℚ) (a b : ℚ) (k : ℕ) :
    (keptBracket f a b k).halve (centre f a b k) (f (centre f a b k)) =
      keptBracket f a b (k + 1) := by
  unfold Bracket.halve keptBracket
  rw [keptHalf_succ]
  dsimp only
  split
  · rfl
  · rfl

theorem midpoint_keptBracket (f : ℚ → ℚ) (a b : ℚ) (k : ℕ) :
    (keptBracket f a b k).midpoint = centre f a b k := by
  have two : (2.0 : ℚ) = 2 := by norm_num
  rw [Bracket.midpoint, two]
  rfl

theorem width_keptBracket (f : ℚ → ℚ) (a b : ℚ) (k : ℕ) :
    (keptBracket f a b k).width = (b - a) / 2 ^ k := width_keptHalf f a b k

/-- The function and the interval are of a size that does not count as diverged. -/
def IsSized (f : ℚ → ℚ) (a b : ℚ) : Prop :=
  -10 ^ 12 ≤ a ∧ b ≤ 10 ^ 12 ∧ ∀ x ∈ Set.Icc a b, |f x| ≤ 10 ^ 12

theorem IsSized.not_isRunaway (sized : IsSized f a b) {x : ℚ} (within : x ∈ Set.Icc a b) :
    ¬ (IsRunaway x ∨ IsRunaway (f x)) := by
  obtain ⟨low, high, values⟩ := sized
  rw [isRunaway_iff, isRunaway_iff, not_or, not_lt, not_lt]
  exact ⟨abs_le.mpr ⟨low.trans within.1, within.2.trans high⟩, values x within⟩

/-- An iteration visits the centre of what is kept. -/
theorem bisectionTurn_keptBracket (order : a < b) (sized : IsSized f a b) (t : ℚ) (k : ℕ) :
    bisectionTurn (fun x => .ok (f x)) t (k + 1) (keptBracket f a b k) =
      ⟨some ⟨k + 1, centre f a b k, f (centre f a b k), some (keptHalf f a b k).1,
          some (keptHalf f a b k).2, some ((b - a) / 2 ^ (k + 1))⟩,
        if f (centre f a b k) = 0 then .stop (.success (centre f a b k) (k + 1))
        else if (b - a) / 2 ^ (k + 1) ≤ t then .stop (.success (centre f a b (k + 1)) (k + 1))
        else .go (keptBracket f a b (k + 1))⟩ := by
  have two : (2.0 : ℚ) = 2 := by norm_num
  obtain ⟨above, below⟩ := centre_mem (f := f) order k
  obtain ⟨left, right⟩ := keptHalf_within (f := f) order k
  have small := sized.not_isRunaway ⟨left.trans above.le, below.le.trans right⟩
  have half : (b - a) / 2 ^ k / 2 = (b - a) / 2 ^ (k + 1) := by rw [pow_succ, div_div]
  simp only [bisectionTurn, midpoint_keptBracket, halve_keptBracket, width_keptBracket,
    if_neg small, beq_iff_eq, two, half]
  rfl

theorem visited_succ (f : ℚ → ℚ) (a b : ℚ) (n : ℕ) :
    visited f a b (n + 1) = visited f a b n ++ [⟨n + 1, centre f a b n, f (centre f a b n),
      some (keptHalf f a b n).1, some (keptHalf f a b n).2, some ((b - a) / 2 ^ (n + 1))⟩] := by
  rw [visited, visited, List.range_succ, List.map_append]
  rfl

/-- The iterations go on as long as no centre is a zero and what is kept is too wide. -/
theorem passes_visited (order : a < b) (sized : IsSized f a b)
    (away : ∀ k < n, f (centre f a b k) ≠ 0) (wide : ∀ k < n, t < (b - a) / 2 ^ (k + 1)) :
    Passes (bisectionTurn (fun x => .ok (f x)) t) n 1 (keptBracket f a b 0) (visited f a b n)
      (keptBracket f a b n) := by
  induction n with
  | zero => exact .zero
  | succ n ih =>
    have before := ih (fun k lt => away k (Nat.lt_succ_of_lt lt))
      fun k lt => wide k (Nat.lt_succ_of_lt lt)
    have goes := bisectionTurn_keptBracket order sized t n
    rw [if_neg (away n (Nat.lt_succ_self n)), if_neg (wide n (Nat.lt_succ_self n)).not_ge] at goes
    rw [visited_succ]
    exact before.snoc (by rwa [Nat.add_comm])

/-! ## Runs -/

/-- Two ends with values that do not have the same sign make a bracket. -/
theorem bracket?_of_sized (order : a < b) (sized : IsSized f a b) (opposite : f a * f b ≤ 0) :
    bracket? (fun x => .ok (f x)) (some a) (some b) = .ok ⟨a, f a, b, f b⟩ := by
  have left := not_or.mp (sized.not_isRunaway ⟨le_rfl, order.le⟩)
  have right := not_or.mp (sized.not_isRunaway ⟨order.le, le_rfl⟩)
  have start := bracket?_of_values (f := fun x => .ok (f x)) (s := ⟨a, f a, b, f b⟩) order rfl rfl
  have fits : (⟨a, f a, b, f b⟩ : Bracket ℚ).refusal? = none := by
    have small : ¬ (⟨a, f a, b, f b⟩ : Bracket ℚ).IsOversized := by
      rintro (h | h | h | h)
      exacts [left.1 h, left.2 h, right.1 h, right.2 h]
    have finite : ¬ (Scalar.isFinite (f a) = false ∨ Scalar.isFinite (f b) = false) := by
      simp [Scalar.isFinite]
    rw [Bracket.refusal?, if_neg finite, if_neg small, if_neg opposite.not_gt]
  rwa [fits] at start

/-- A run from a bracket ends at once if the bracket is narrow enough, and iterates otherwise. -/
theorem exactRun_eq (order : a < b) (sized : IsSized f a b) (change : f a * f b < 0) (t : ℚ)
    (budget : ℕ) :
    exactRun f a b t budget =
      if b - a ≤ t then .ended (.success (centre f a b 0) 0)
      else iterate (bisectionTurn (fun x => .ok (f x)) t)
        (fun s => .exhausted s.midpoint budget) budget 1 (keptBracket f a b 0) := by
  have left : ¬ ((keptBracket f a b 0).fa == 0) = true := by
    rw [beq_iff_eq]
    exact left_ne_zero_of_mul change.ne
  have right : ¬ ((keptBracket f a b 0).fb == 0) = true := by
    rw [beq_iff_eq]
    exact right_ne_zero_of_mul change.ne
  have start : bracket? (fun x => .ok (f x)) (some a) (some b) = .ok (keptBracket f a b 0) :=
    bracket?_of_sized order sized change.le
  rw [exactRun, bisection, start]
  dsimp only
  rw [if_neg left, if_neg right, midpoint_keptBracket]
  rfl

theorem exists_isLeast_halvings (a b : ℚ) (pos : 0 < t) :
    ∃ K, IsLeast {k : ℕ | (b - a) / 2 ^ k ≤ t} K := by
  have some : ∃ k : ℕ, (b - a) / 2 ^ k ≤ t := by
    obtain ⟨k, lt⟩ := pow_unbounded_of_one_lt ((b - a) / t) one_lt_two
    refine ⟨k, ?_⟩
    rw [div_le_iff₀ (by positivity), mul_comm, ← div_le_iff₀ pos]
    exact lt.le
  exact ⟨Nat.find some, Nat.find_spec some, fun k narrow => Nat.find_min' some narrow⟩

section

variable (order : a < b) (sized : IsSized f a b) (change : f a * f b < 0)
include order sized change

theorem exactRun_of_wide (wide : t < b - a) (budget : ℕ) :
    exactRun f a b t budget =
      iterate (bisectionTurn (fun x => .ok (f x)) t)
        (fun s => .exhausted s.midpoint budget) budget 1 (keptBracket f a b 0) := by
  rw [exactRun_eq order sized change, if_neg wide.not_ge]

/-- A run ends at the first centre that is a zero, if it comes that far. -/
theorem exactRun_of_zero (away : ∀ j < k, f (centre f a b j) ≠ 0) (zero : f (centre f a b k) = 0)
    (wide : ∀ j ≤ k, t < (b - a) / 2 ^ j) (lt : k < budget) :
    exactRun f a b t budget = ⟨visited f a b (k + 1), .success (centre f a b k) (k + 1)⟩ := by
  have passes := passes_visited order sized away (t := t) fun j lt => wide (j + 1) lt
  have stops := bisectionTurn_keptBracket order sized t k
  rw [if_pos zero, Nat.add_comm] at stops
  have start : t < b - a := by simpa using wide 0 (Nat.zero_le k)
  rw [exactRun_of_wide order sized change start, passes.iterate_stop stops _ lt, visited_succ,
    Nat.add_comm]
  rfl

/-- A run that meets no zero ends when it has been halved often enough. -/
theorem exactRun_of_narrow (away : ∀ j < k, f (centre f a b j) ≠ 0)
    (wide : ∀ j < k, t < (b - a) / 2 ^ j) (narrow : (b - a) / 2 ^ k ≤ t) (le : k ≤ budget) :
    exactRun f a b t budget = ⟨visited f a b k, .success (centre f a b k) k⟩ := by
  cases k with
  | zero =>
    rw [pow_zero, div_one] at narrow
    rw [exactRun_eq order sized change, if_pos narrow]
    rfl
  | succ k =>
    have passes := passes_visited order sized (t := t)
      (fun j lt => away j (Nat.lt_succ_of_lt lt)) fun j lt => wide (j + 1) (Nat.succ_lt_succ lt)
    have stops := bisectionTurn_keptBracket order sized t k
    rw [if_neg (away k (Nat.lt_succ_self k)), if_pos narrow, Nat.add_comm] at stops
    have start : t < b - a := by simpa using wide 0 (Nat.succ_pos k)
    rw [exactRun_of_wide order sized change start, passes.iterate_stop stops _ le, visited_succ,
      Nat.add_comm]
    rfl

/-- A run that meets no zero and is not halved often enough spends its budget. -/
theorem exactRun_of_spent (away : ∀ j < budget, f (centre f a b j) ≠ 0)
    (wide : ∀ j ≤ budget, t < (b - a) / 2 ^ j) :
    exactRun f a b t budget = ⟨visited f a b budget, .exhausted (centre f a b budget) budget⟩ := by
  have passes := passes_visited order sized away (t := t) fun j lt => wide (j + 1) lt
  have start : t < b - a := by simpa using wide 0 (Nat.zero_le budget)
  rw [exactRun_of_wide order sized change start, passes.iterate_spent, midpoint_keptBracket]

end

/-- **Bisection in exact numbers**: a bracket is halved until its centre is a zero, until it has
been halved often enough for the tolerance, or until the budget is spent. A run that meets no zero
ends at the centre of an interval that is exactly as wide as these halvings make it and encloses a
change of sign. -/
theorem bisection_exact (budget : ℕ) (order : a < b) (low : -10 ^ 12 ≤ a) (high : b ≤ 10 ^ 12)
    (sized : ∀ x ∈ Set.Icc a b, |f x| ≤ 10 ^ 12) (change : f a * f b < 0) (pos : 0 < t) :
    ∃ K, IsLeast {k : ℕ | (b - a) / 2 ^ k ≤ t} K ∧
      (∀ k < min K budget, f (centre f a b k) = 0 → (∀ j < k, f (centre f a b j) ≠ 0) →
        exactRun f a b t budget =
          ⟨visited f a b (k + 1), .success (centre f a b k) (k + 1)⟩) ∧
      ((∀ k < min K budget, f (centre f a b k) ≠ 0) →
        (K ≤ budget → ∃ l r, Encloses f a b ((b - a) / 2 ^ K) l r ∧
          exactRun f a b t budget = ⟨visited f a b K, .success ((l + r) / 2) K⟩) ∧
        (budget < K → ∃ l r, Encloses f a b ((b - a) / 2 ^ budget) l r ∧
          exactRun f a b t budget = ⟨visited f a b budget, .exhausted ((l + r) / 2) budget⟩)) := by
  obtain ⟨K, least⟩ := exists_isLeast_halvings a b pos
  have wide (j : ℕ) (lt : j < K) : t < (b - a) / 2 ^ j :=
    not_le.mp fun narrow => lt.not_ge (least.2 narrow)
  have sized : IsSized f a b := ⟨low, high, sized⟩
  refine ⟨K, least, ?_, fun away => ⟨fun le => ?_, fun lt => ?_⟩⟩
  · intro k lt zero first
    obtain ⟨few, within⟩ := lt_min_iff.mp lt
    exact exactRun_of_zero order sized change first zero
      (fun j le => wide j (le.trans_lt few)) within
  · rw [min_eq_left le] at away
    exact ⟨_, _, encloses_keptHalf order change away,
      exactRun_of_narrow order sized change away wide least.1 le⟩
  · rw [min_eq_right lt.le] at away
    exact ⟨_, _, encloses_keptHalf order change away,
      exactRun_of_spent order sized change away fun j le => wide j (le.trans_lt lt)⟩

/-- The line through a third is bisected twice on the unit interval for a quarter. -/
theorem bisection_exact_third :
    ∃ l r, Encloses (fun x => 3 * x - 1) 0 1 (1 / 4) l r ∧
      exactRun (fun x => 3 * x - 1) 0 1 (1 / 4) 3 =
        ⟨visited (fun x => 3 * x - 1) 0 1 2, .success ((l + r) / 2) 2⟩ := by
  have sized : ∀ x ∈ Set.Icc (0 : ℚ) 1, |3 * x - 1| ≤ 10 ^ 12 := fun x within => by
    rw [abs_le]
    constructor <;> linarith [within.1, within.2]
  obtain ⟨K, least, -, onward⟩ := bisection_exact (f := fun x => 3 * x - 1) (t := 1 / 4) 3
    zero_lt_one (by norm_num) (by norm_num) sized (by norm_num) (by norm_num)
  have two : IsLeast {k : ℕ | ((1 : ℚ) - 0) / 2 ^ k ≤ 1 / 4} 2 := by
    refine ⟨by norm_num, fun k narrow => ?_⟩
    by_contra few
    obtain rfl | rfl : k = 0 ∨ k = 1 := by omega
    all_goals norm_num at narrow
  obtain rfl := least.unique two
  have away : ∀ k < min 2 3, (fun x : ℚ => 3 * x - 1) (centre (fun x => 3 * x - 1) 0 1 k) ≠ 0 := by
    decide +kernel
  obtain ⟨l, r, encloses, ended⟩ := (onward away).1 (by decide)
  have quarter : ((1 : ℚ) - 0) / 2 ^ 2 = 1 / 4 := by norm_num
  exact ⟨l, r, quarter ▸ encloses, ended⟩

end EquationSolver.Root
