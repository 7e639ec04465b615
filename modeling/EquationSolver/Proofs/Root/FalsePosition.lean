import EquationSolver.Proofs.Iteration
import EquationSolver.Proofs.Root.Halving
import Mathlib.Order.CompletePartialOrder

/-!
# False position in exact numbers

Over the rationals the chord through two values of opposite sign meets the axis strictly between
them, whichever of the two is the positive one. What is kept is therefore a smaller interval on
which the function changes its sign again. A value below the tolerance ends a run before it can
become the value at an end, so that the values at both ends stay as far from zero as the tolerance
and twice as far from each other. Such a chord is level only for tolerances that are below the
threshold of that test.

## Main definitions

* `keptPart`, `crossing`: the part of an interval that is kept after some cuts, and where its chord
  meets the axis
* `Straddles`: an interval with values of opposite sign at its ends, none of them small
* `Reaches`: a run comes to an iteration if its budget lasts
* `ChordInvariant`: what holds in every iteration that a run comes to
* `ChordEnd`: the ways in which a run ends

## Main results

* `Straddles.chordZero_mem`, `Straddles.cut`: where a chord cuts, and what the cut keeps
* `chordInvariant`: the invariant of the iterations
* `chordEnd_chordRun`: what a run comes to
* `regulaFalsi_exact`: the iterations and the end of a run
-/

namespace EquationSolver.Root

/-- Where the chord through the values at two ends meets the axis. -/
def chordZero (f : ℚ → ℚ) (l r : ℚ) : ℚ := (l * f r - r * f l) / (f r - f l)

/-- What is kept of an interval that is cut where its chord meets the axis: the part right of the
cut if the value there has the sign of the left end, and the left part otherwise. -/
def cutAtChord (f : ℚ → ℚ) (l r : ℚ) : ℚ × ℚ :=
  if 0 < f l * f (chordZero f l r) then (chordZero f l r, r) else (l, chordZero f l r)

section

variable (f : ℚ → ℚ) (a b : ℚ)

/-- The part of an interval that is kept after some cuts. -/
def keptPart : ℕ → ℚ × ℚ
  | 0 => (a, b)
  | k + 1 => cutAtChord f (keptPart k).1 (keptPart k).2

/-- Where the chord of what is kept after `k` cuts meets the axis, which the next iteration
visits. -/
def crossing (k : ℕ) : ℚ := chordZero f (keptPart f a b k).1 (keptPart f a b k).2

/-- The point that was visited before, if one was. -/
def previous : ℕ → Option ℚ
  | 0 => none
  | k + 1 => some (crossing f a b k)

/-- What is kept after `k` cuts, with the values at its ends. -/
def partBracket (k : ℕ) : Bracket ℚ :=
  ⟨(keptPart f a b k).1, f (keptPart f a b k).1, (keptPart f a b k).2, f (keptPart f a b k).2⟩

/-- The record of the iteration after `k` cuts. -/
def cutRecord (k : ℕ) : Record ℚ :=
  ⟨k + 1, crossing f a b k, f (crossing f a b k), some (keptPart f a b k).1,
    some (keptPart f a b k).2, (previous f a b k).map fun y => |crossing f a b k - y|⟩

/-- The records of the first `n` iterations. -/
def cuts (n : ℕ) : List (Record ℚ) := (List.range n).map (cutRecord f a b)

/-- The run of false position on a function that has a value everywhere. -/
def chordRun (t : ℚ) (budget : ℕ) : History ℚ :=
  regulaFalsi (fun x => .ok (f x)) t budget (some a) (some b)

end

variable {f : ℚ → ℚ} {a b t l r : ℚ} {k n budget : ℕ}

/-! ## One cut -/

/-- An interval with values of opposite sign at its ends that are no smaller than a tolerance. -/
structure Straddles (f : ℚ → ℚ) (t l r : ℚ) : Prop where
  /-- The ends are in order. -/
  order : l < r
  /-- The values at the ends have opposite signs. -/
  change : f l * f r < 0
  /-- The value at the left end is not small. -/
  left : t ≤ |f l|
  /-- The value at the right end is not small. -/
  right : t ≤ |f r|

/-- Values of opposite sign are as far from each other as both are from zero. -/
theorem abs_sub_of_mul_neg {x y : ℚ} (h : x * y < 0) : |y - x| = |x| + |y| := by
  rcases mul_neg_iff.mp h with ⟨hx, hy⟩ | ⟨hx, hy⟩
  · rw [abs_of_pos hx, abs_of_neg hy, abs_of_neg (by linarith)]
    ring
  · rw [abs_of_neg hx, abs_of_pos hy, abs_of_pos (by linarith)]
    ring

namespace Straddles

theorem two_mul_le (h : Straddles f t l r) : 2 * t ≤ |f r - f l| := by
  rw [abs_sub_of_mul_neg h.change, two_mul]
  exact add_le_add h.left h.right

/-- The chord meets the axis strictly between the ends. -/
theorem chordZero_mem (h : Straddles f t l r) : chordZero f l r ∈ Set.Ioo l r := by
  have steep : f r - f l ≠ 0 := by
    intro level
    have change := h.change
    rw [sub_eq_zero.mp level] at change
    exact change.not_ge (mul_self_nonneg _)
  -- The distances from the two ends are to the length as the values at them are to their sum.
  have first : chordZero f l r - l = (r - l) * (-f l / (f r - f l)) := by
    rw [chordZero]
    field_simp
    ring
  have second : r - chordZero f l r = (r - l) * (f r / (f r - f l)) := by
    rw [chordZero]
    field_simp
    ring
  have shares : 0 < -f l / (f r - f l) ∧ 0 < f r / (f r - f l) := by
    rcases mul_neg_iff.mp h.change with ⟨left, right⟩ | ⟨left, right⟩
    · have falls : f r - f l < 0 := by linarith
      exact ⟨div_pos_of_neg_of_neg (neg_neg_of_pos left) falls, div_pos_of_neg_of_neg right falls⟩
    · have rises : 0 < f r - f l := by linarith
      exact ⟨div_pos (neg_pos.mpr left) rises, div_pos right rises⟩
  have long : 0 < r - l := sub_pos.mpr h.order
  constructor
  · rw [← sub_pos, first]
    exact mul_pos long shares.1
  · rw [← sub_pos, second]
    exact mul_pos long shares.2

/-- A cut at a value that is not small keeps a smaller interval of the same kind. -/
theorem cut (pos : 0 < t) (h : Straddles f t l r) (far : t ≤ |f (chordZero f l r)|) :
    Straddles f t (cutAtChord f l r).1 (cutAtChord f l r).2 := by
  obtain ⟨above, below⟩ := h.chordZero_mem
  have away : f (chordZero f l r) ≠ 0 := abs_pos.mp (pos.trans_le far)
  -- The value at the cut has the sign of one end, and the change is in the part up to the other.
  rw [cutAtChord]
  split
  · rename_i same
    exact ⟨below, (change_right_iff h.change away).mpr same.not_gt, far, h.right⟩
  · rename_i other
    refine ⟨above, lt_of_le_of_ne (not_lt.mp other) ?_, h.left, far⟩
    exact mul_ne_zero (left_ne_zero_of_mul h.change.ne) away

end Straddles

/-- What is kept is smaller. -/
theorem Icc_cutAtChord_ssubset (order : l < r) (mem : chordZero f l r ∈ Set.Ioo l r) :
    Set.Icc (cutAtChord f l r).1 (cutAtChord f l r).2 ⊂ Set.Icc l r := by
  rw [cutAtChord]
  split
  · exact Set.Icc_ssubset_Icc_left order.le mem.1 le_rfl
  · exact Set.Icc_ssubset_Icc_right order.le le_rfl mem.2

/-! ## The iterations -/

/-- The iteration after `k` cuts makes another cut and goes on. -/
structure GoesOn (f : ℚ → ℚ) (a b t : ℚ) (k : ℕ) : Prop where
  /-- The chord is not level. -/
  steep : ¬ IsTiny (f (keptPart f a b k).2 - f (keptPart f a b k).1)
  /-- The value at the cut is not small. -/
  far : t ≤ |f (crossing f a b k)|
  /-- What is kept is not narrow. -/
  wide : t ≤ (keptPart f a b (k + 1)).2 - (keptPart f a b (k + 1)).1

/-- A run comes to the iteration after `k` cuts, if its budget lasts. -/
structure Reaches (f : ℚ → ℚ) (a b t : ℚ) (k : ℕ) : Prop where
  /-- The interval is not narrow. -/
  wide : t ≤ b - a
  /-- The value at its left end is not small. -/
  left : t ≤ |f a|
  /-- The value at its right end is not small. -/
  right : t ≤ |f b|
  /-- The iterations before go on. -/
  onward : ∀ j < k, GoesOn f a b t j

theorem Reaches.of_le (h : Reaches f a b t n) (le : k ≤ n) : Reaches f a b t k :=
  ⟨h.wide, h.left, h.right, fun j lt => h.onward j (lt.trans_le le)⟩

theorem Reaches.before (h : Reaches f a b t (k + 1)) : Reaches f a b t k :=
  h.of_le (Nat.le_succ k)

/-- What holds in the iteration after `k` cuts. -/
structure ChordInvariant (f : ℚ → ℚ) (a b t : ℚ) (k : ℕ) : Prop where
  /-- What is kept is a part of the interval. -/
  within : a ≤ (keptPart f a b k).1 ∧ (keptPart f a b k).2 ≤ b
  /-- The values at its ends have opposite signs and are not small. -/
  straddles : Straddles f t (keptPart f a b k).1 (keptPart f a b k).2
  /-- They are twice as far from each other. -/
  apart : 2 * t ≤ |f (keptPart f a b k).2 - f (keptPart f a b k).1|
  /-- The chord meets the axis strictly between the ends. -/
  inside : crossing f a b k ∈ Set.Ioo (keptPart f a b k).1 (keptPart f a b k).2
  /-- If the value there is not small, a smaller part of the same kind is kept. -/
  next : t ≤ |f (crossing f a b k)| →
    Straddles f t (keptPart f a b (k + 1)).1 (keptPart f a b (k + 1)).2 ∧
      Set.Icc (keptPart f a b (k + 1)).1 (keptPart f a b (k + 1)).2 ⊂
        Set.Icc (keptPart f a b k).1 (keptPart f a b k).2

theorem chordInvariant_of_straddles (pos : 0 < t)
    (within : a ≤ (keptPart f a b k).1 ∧ (keptPart f a b k).2 ≤ b)
    (straddles : Straddles f t (keptPart f a b k).1 (keptPart f a b k).2) :
    ChordInvariant f a b t k where
  within := within
  straddles := straddles
  apart := straddles.two_mul_le
  inside := straddles.chordZero_mem
  next far := ⟨straddles.cut pos far,
    Icc_cutAtChord_ssubset straddles.order straddles.chordZero_mem⟩

/-- What an iteration keeps. -/
theorem ChordInvariant.succ (pos : 0 < t) (h : ChordInvariant f a b t k)
    (far : t ≤ |f (crossing f a b k)|) : ChordInvariant f a b t (k + 1) := by
  obtain ⟨straddles, smaller⟩ := h.next far
  obtain ⟨left, right⟩ := (Set.Icc_subset_Icc_iff straddles.order.le).mp smaller.subset
  exact chordInvariant_of_straddles pos ⟨h.within.1.trans left, right.trans h.within.2⟩ straddles

/-- The invariant holds in every iteration that a run comes to. -/
theorem chordInvariant (order : a < b) (pos : 0 < t) (opposite : f a * f b ≤ 0)
    (reaches : Reaches f a b t k) : ChordInvariant f a b t k := by
  induction k with
  | zero =>
    -- The ends may have a zero among them, but then the run has ended before.
    have left : f a ≠ 0 := abs_pos.mp (pos.trans_le reaches.left)
    have right : f b ≠ 0 := abs_pos.mp (pos.trans_le reaches.right)
    exact chordInvariant_of_straddles pos ⟨le_rfl, le_rfl⟩
      ⟨order, lt_of_le_of_ne opposite (mul_ne_zero left right), reaches.left, reaches.right⟩
  | succ k ih =>
    exact (ih reaches.before).succ pos (reaches.onward k (Nat.lt_succ_self k)).far

theorem ChordInvariant.crossing_mem (h : ChordInvariant f a b t k) :
    crossing f a b k ∈ Set.Icc a b :=
  ⟨h.within.1.trans h.inside.1.le, h.inside.2.le.trans h.within.2⟩

/-- Values that are far enough from each other have no level chord. -/
theorem ChordInvariant.steep (h : ChordInvariant f a b t k) (large : 1e-12 ≤ t) :
    ¬ IsTiny (f (keptPart f a b k).2 - f (keptPart f a b k).1) := by
  intro tiny
  have tiny : |f (keptPart f a b k).2 - f (keptPart f a b k).1| < 1e-12 := tiny
  linarith [h.apart]

theorem chordPoint_partBracket (f : ℚ → ℚ) (a b : ℚ) (k : ℕ) :
    (partBracket f a b k).chordPoint = crossing f a b k := rfl

theorem cut_partBracket (f : ℚ → ℚ) (a b : ℚ) (k : ℕ) :
    (partBracket f a b k).cut (crossing f a b k) (f (crossing f a b k)) =
      partBracket f a b (k + 1) := by
  unfold Bracket.cut partBracket crossing
  rw [keptPart, cutAtChord]
  dsimp only
  split
  · rfl
  · rfl

theorem midpoint_partBracket (f : ℚ → ℚ) (a b : ℚ) (k : ℕ) :
    (partBracket f a b k).midpoint = ((keptPart f a b k).1 + (keptPart f a b k).2) / 2 := by
  have two : (2.0 : ℚ) = 2 := by norm_num
  rw [Bracket.midpoint, two]
  rfl

/-- An iteration visits the point where the chord meets the axis. -/
theorem regulaFalsiTurn_partBracket (sized : IsSized f a b) (h : ChordInvariant f a b t k) :
    regulaFalsiTurn (fun x => .ok (f x)) t (k + 1) (partBracket f a b k, previous f a b k) =
      if IsTiny (f (keptPart f a b k).2 - f (keptPart f a b k).1) then
        ⟨none, .stop (.diverged .levelChord (k + 1))⟩
      else ⟨some (cutRecord f a b k),
        if |f (crossing f a b k)| < t then .stop (.success (crossing f a b k) (k + 1))
        else if (keptPart f a b (k + 1)).2 - (keptPart f a b (k + 1)).1 < t then
          .stop (.success (((keptPart f a b (k + 1)).1 + (keptPart f a b (k + 1)).2) / 2) (k + 1))
        else .go (partBracket f a b (k + 1), previous f a b (k + 1))⟩ := by
  have small := sized.not_isRunaway h.crossing_mem
  simp only [regulaFalsiTurn, chordPoint_partBracket, cut_partBracket, midpoint_partBracket,
    if_neg small]
  rfl

theorem cuts_succ (f : ℚ → ℚ) (a b : ℚ) (n : ℕ) :
    cuts f a b (n + 1) = cuts f a b n ++ [cutRecord f a b n] := by
  rw [cuts, cuts, List.range_succ, List.map_append]
  rfl

/-! ## Runs -/

/-- How a run ends. -/
inductive ChordEnd (f : ℚ → ℚ) (a b t : ℚ) (budget : ℕ) : History ℚ → Prop where
  /-- The interval is narrow. -/
  | narrow : b - a < t → ChordEnd f a b t budget (.ended (.success ((a + b) / 2) 0))
  /-- The value at the left end is small. -/
  | left : t ≤ b - a → |f a| < t → ChordEnd f a b t budget (.ended (.success a 0))
  /-- The value at the right end is small. -/
  | right : t ≤ b - a → t ≤ |f a| → |f b| < t →
      ChordEnd f a b t budget (.ended (.success b 0))
  /-- A chord is level. -/
  | level {k : ℕ} : k < budget → Reaches f a b t k →
      IsTiny (f (keptPart f a b k).2 - f (keptPart f a b k).1) →
      ChordEnd f a b t budget ⟨cuts f a b k, .diverged .levelChord (k + 1)⟩
  /-- A chord meets the axis where the value is small. -/
  | value {k : ℕ} : k < budget → Reaches f a b t k → |f (crossing f a b k)| < t →
      ChordEnd f a b t budget ⟨cuts f a b (k + 1), .success (crossing f a b k) (k + 1)⟩
  /-- What is kept is narrow. -/
  | width {k : ℕ} : k < budget → Reaches f a b t k → t ≤ |f (crossing f a b k)| →
      (keptPart f a b (k + 1)).2 - (keptPart f a b (k + 1)).1 < t →
      ChordEnd f a b t budget ⟨cuts f a b (k + 1),
        .success (((keptPart f a b (k + 1)).1 + (keptPart f a b (k + 1)).2) / 2) (k + 1)⟩
  /-- The budget is spent. -/
  | spent : Reaches f a b t budget → ChordEnd f a b t budget
      ⟨cuts f a b budget, .exhausted ((previous f a b budget).getD (keptPart f a b budget).1)
        budget⟩

section

variable (order : a < b) (sized : IsSized f a b) (opposite : f a * f b ≤ 0)
include order sized opposite

/-- A run ends at once where the interval is narrow or a value at an end is small, and iterates from
the whole interval otherwise. -/
theorem chordRun_eq (t : ℚ) (budget : ℕ) :
    chordRun f a b t budget =
      if b - a < t then .ended (.success ((a + b) / 2) 0)
      else if |f a| < t then .ended (.success a 0)
      else if |f b| < t then .ended (.success b 0)
      else iterate (regulaFalsiTurn (fun x => .ok (f x)) t)
        (fun (s, before) => .exhausted (before.getD s.a) budget) budget 1
        (partBracket f a b 0, none) := by
  have start : bracket? (fun x => .ok (f x)) (some a) (some b) = .ok (partBracket f a b 0) :=
    bracket?_of_sized order sized opposite
  rw [chordRun, regulaFalsi, start]
  dsimp only
  rw [midpoint_partBracket]
  rfl

theorem chordRun_of_reaches (reaches : Reaches f a b t 0) (budget : ℕ) :
    chordRun f a b t budget = iterate (regulaFalsiTurn (fun x => .ok (f x)) t)
      (fun (s, before) => .exhausted (before.getD s.a) budget) budget 1
      (partBracket f a b 0, none) := by
  rw [chordRun_eq order sized opposite, if_neg reaches.wide.not_gt, if_neg reaches.left.not_gt,
    if_neg reaches.right.not_gt]

theorem chordEnd_of_not_reaches (ends : ¬ Reaches f a b t 0) :
    ChordEnd f a b t budget (chordRun f a b t budget) := by
  rw [chordRun_eq order sized opposite]
  split
  · exact .narrow ‹_›
  · rename_i wide
    split
    · exact .left (not_lt.mp wide) ‹_›
    · rename_i left
      split
      · exact .right (not_lt.mp wide) (not_lt.mp left) ‹_›
      · rename_i right
        exact absurd ⟨not_lt.mp wide, not_lt.mp left, not_lt.mp right,
          fun j lt => absurd lt (Nat.not_lt_zero j)⟩ ends

variable (pos : 0 < t)
include pos

/-- The iterations before one that a run comes to. -/
theorem passes_cuts (reaches : Reaches f a b t n) :
    Passes (regulaFalsiTurn (fun x => .ok (f x)) t) n 1 (partBracket f a b 0, none) (cuts f a b n)
      (partBracket f a b n, previous f a b n) := by
  induction n with
  | zero => exact .zero
  | succ n ih =>
    have onward := reaches.onward n (Nat.lt_succ_self n)
    have goes := regulaFalsiTurn_partBracket sized
      (chordInvariant order pos opposite reaches.before)
    rw [if_neg onward.steep, if_neg onward.far.not_gt, if_neg onward.wide.not_gt] at goes
    rw [cuts_succ]
    exact (ih reaches.before).snoc (by rwa [Nat.add_comm])

/-- A run that comes to an iteration that does not go on ends there. -/
theorem chordEnd_of_reaches (reaches : Reaches f a b t k) (stops : ¬ GoesOn f a b t k)
    (lt : k < budget) : ChordEnd f a b t budget (chordRun f a b t budget) := by
  have begins := reaches.of_le (Nat.zero_le k)
  have passes := passes_cuts order sized opposite pos reaches
  have turn := regulaFalsiTurn_partBracket sized (chordInvariant order pos opposite reaches)
  -- The tests of an iteration, in their order: the first that holds is how the run ends.
  rw [chordRun_of_reaches order sized opposite begins]
  conv_lhs at turn => rw [Nat.add_comm]
  split at turn
  · rename_i level
    rw [passes.iterate_stop turn _ lt, Option.toList_none, List.append_nil]
    exact .level lt reaches level
  · rename_i steep
    split at turn
    · rename_i small
      rw [passes.iterate_stop turn _ lt, Option.toList_some, ← cuts_succ]
      exact .value lt reaches small
    · rename_i far
      split at turn
      · rename_i narrow
        rw [passes.iterate_stop turn _ lt, Option.toList_some, ← cuts_succ]
        exact .width lt reaches (not_lt.mp far) narrow
      · rename_i wide
        exact absurd ⟨steep, not_lt.mp far, not_lt.mp wide⟩ stops

/-- A run ends in one of these ways. -/
theorem chordEnd_chordRun (budget : ℕ) :
    ChordEnd f a b t budget (chordRun f a b t budget) := by
  by_cases begins : Reaches f a b t 0
  · by_cases onward : ∀ j < budget, GoesOn f a b t j
    · have reaches : Reaches f a b t budget := { begins with onward }
      have passes := passes_cuts order sized opposite pos reaches
      rw [chordRun_of_reaches order sized opposite begins, passes.iterate_spent]
      exact .spent reaches
    · -- The first iteration that does not go on is one that the run comes to.
      classical
      push Not at onward
      obtain ⟨lt, stops⟩ := Nat.find_spec onward
      have reaches : Reaches f a b t (Nat.find onward) := { begins with
        onward := fun j first => by
          by_contra stops
          exact Nat.find_min onward first ⟨first.trans lt, stops⟩ }
      exact chordEnd_of_reaches order sized opposite pos reaches stops lt
  · exact chordEnd_of_not_reaches order sized opposite begins

end

/-- Every record of a run is that of an iteration that the run comes to. -/
theorem ChordEnd.exists_record {run : History ℚ} (h : ChordEnd f a b t budget run) {r : Record ℚ}
    (mem : r ∈ run.trace) : ∃ k, r = cutRecord f a b k ∧ Reaches f a b t k := by
  have among {n : ℕ} (reaches : ∀ k < n, Reaches f a b t k) (mem : r ∈ cuts f a b n) :
      ∃ k, r = cutRecord f a b k ∧ Reaches f a b t k := by
    obtain ⟨k, lt, rfl⟩ := List.mem_map.mp mem
    exact ⟨k, rfl, reaches k (List.mem_range.mp lt)⟩
  cases h with
  | narrow | left | right => cases mem
  | level lt reaches => exact among (fun k lt => reaches.of_le lt.le) mem
  | value lt reaches | width lt reaches =>
    exact among (fun k lt => reaches.of_le (Nat.le_of_lt_succ lt)) mem
  | spent reaches => exact among (fun k lt => reaches.of_le lt.le) mem

section

variable {run : History ℚ} (h : ChordEnd f a b t budget run) (order : a < b)
  (opposite : f a * f b ≤ 0)
include h order opposite

/-- A run with a tolerance that is not below the threshold of the test for level chords finds a
root or spends its budget. -/
theorem ChordEnd.success_or_exhausted (large : 1e-12 ≤ t) :
    ∃ x k, run.outcome = .success x k ∨ run.outcome = .exhausted x k := by
  cases h with
  | narrow | left | right | value | width => exact ⟨_, _, .inl rfl⟩
  | level lt reaches level =>
    have pos : 0 < t := lt_of_lt_of_le (by norm_num) large
    exact absurd level ((chordInvariant order pos opposite reaches).steep large)
  | spent => exact ⟨_, _, .inr rfl⟩

/-- A root lies in the interval, and its value is small or it is the midpoint of a narrow interval
on which the function changes its sign. -/
theorem ChordEnd.root (pos : 0 < t) {root : ℚ} (success : run.outcome = .success root k) :
    root ∈ Set.Icc a b ∧ (|f root| < t ∨ ∃ l r, a ≤ l ∧ l < r ∧ r ≤ b ∧ r - l < t ∧
      f l * f r ≤ 0 ∧ root = (l + r) / 2) := by
  have midpoint {l r : ℚ} (left : a ≤ l) (between : l < r) (right : r ≤ b) :
      (l + r) / 2 ∈ Set.Icc a b := by
    constructor <;> linarith
  cases h with
  | narrow narrow =>
    cases success
    exact ⟨midpoint le_rfl order le_rfl,
      .inr ⟨a, b, le_rfl, order, le_rfl, narrow, opposite, rfl⟩⟩
  | left _ small =>
    cases success
    exact ⟨Set.left_mem_Icc.mpr order.le, .inl small⟩
  | right _ _ small =>
    cases success
    exact ⟨Set.right_mem_Icc.mpr order.le, .inl small⟩
  | value _ reaches small =>
    cases success
    exact ⟨(chordInvariant order pos opposite reaches).crossing_mem, .inl small⟩
  | width _ reaches far narrow =>
    cases success
    have kept := (chordInvariant order pos opposite reaches).succ pos far
    exact ⟨midpoint kept.within.1 kept.straddles.order kept.within.2,
      .inr ⟨_, _, kept.within.1, kept.straddles.order, kept.within.2, narrow,
        kept.straddles.change.le, rfl⟩⟩
  | level => cases success
  | spent => cases success

end

/-- **False position in exact numbers.** Each iteration of a run cuts an interval with values of
opposite sign at its ends, none of them below the tolerance, strictly between these ends, and goes
on with a smaller interval of the same kind. With a tolerance that is not below `1e-12` the chord is
never level, and a run finds a root or spends its budget. A root lies in the interval given; its
value is below the tolerance, or it is the midpoint of an interval narrower than the tolerance on
which the function changes its sign. -/
theorem regulaFalsi_exact (budget : ℕ) (order : a < b) (low : -10 ^ 12 ≤ a) (high : b ≤ 10 ^ 12)
    (sized : ∀ x ∈ Set.Icc a b, |f x| ≤ 10 ^ 12) (opposite : f a * f b ≤ 0) (pos : 0 < t) :
    ChordEnd f a b t budget (chordRun f a b t budget) ∧
    (∀ k, Reaches f a b t k → ChordInvariant f a b t k) ∧
    (∀ r ∈ (chordRun f a b t budget).trace,
      ∃ k, r = cutRecord f a b k ∧ ChordInvariant f a b t k) ∧
    (1e-12 ≤ t → ∃ x k, (chordRun f a b t budget).outcome = .success x k ∨
      (chordRun f a b t budget).outcome = .exhausted x k) ∧
    ∀ root k, (chordRun f a b t budget).outcome = .success root k →
      root ∈ Set.Icc a b ∧ (|f root| < t ∨ ∃ l r, a ≤ l ∧ l < r ∧ r ≤ b ∧ r - l < t ∧
        f l * f r ≤ 0 ∧ root = (l + r) / 2) := by
  have ends := chordEnd_chordRun order ⟨low, high, sized⟩ opposite pos budget
  have holds (k : ℕ) : Reaches f a b t k → ChordInvariant f a b t k :=
    chordInvariant order pos opposite
  refine ⟨ends, holds, fun r mem => ?_, ends.success_or_exhausted order opposite,
    fun root k => ends.root order opposite pos⟩
  obtain ⟨k, record, reaches⟩ := ends.exists_record mem
  exact ⟨k, record, holds k reaches⟩

/-- From the interval between 1 and 2, two cuts bring the parabola `x² - 2` below a tenth. -/
theorem regulaFalsi_exact_parabola :
    ChordInvariant (fun x => x * x - 2) 1 2 (1 / 10) 1 ∧
      (chordRun (fun x => x * x - 2) 1 2 (1 / 10) 5).outcome = .success (7 / 5) 2 ∧
      (7 / 5 : ℚ) ∈ Set.Icc 1 2 := by
  have sized : ∀ x ∈ Set.Icc (1 : ℚ) 2, |x * x - 2| ≤ 10 ^ 12 := fun x within => by
    rw [abs_le]
    constructor <;> nlinarith [within.1, within.2]
  obtain ⟨-, holds, -, -, found⟩ := regulaFalsi_exact (f := fun x => x * x - 2) (t := 1 / 10) 5
    one_lt_two (by norm_num) (by norm_num) sized (by norm_num) (by norm_num)
  have reaches : Reaches (fun x => x * x - 2) 1 2 (1 / 10) 1 := by
    refine ⟨by norm_num, by norm_num, by norm_num, fun j lt => ?_⟩
    obtain rfl : j = 0 := Nat.lt_one_iff.mp lt
    constructor <;> decide +kernel
  have root : (match (chordRun (fun x => x * x - 2) 1 2 (1 / 10) 5).outcome with
      | .success root k => some (root, k)
      | _ => none) = some (7 / 5, 2) := by
    decide +kernel
  generalize (chordRun (fun x => x * x - 2) 1 2 (1 / 10) 5).outcome = outcome at root found ⊢
  split at root
  · cases root
    exact ⟨holds 1 reaches, rfl, (found _ _ rfl).1⟩
  · cases root

end EquationSolver.Root
