import EquationSolver.Proofs.Double.Sign
import EquationSolver.Proofs.Double.Size
import EquationSolver.Proofs.Root.Halving
import EquationSolver.Proofs.Root.Trace

/-!
# Bisection and its sign change

Bisection is right as long as the function changes its sign on the bracket that it holds. It
compares two signs by a product of doubles, which vanishes if the exact product is at most half the
least positive double. Two values of the same sign then pass for a sign change, and a sign change
for none, so that the half is kept on which the function may have no zero.

## Main definitions

* `Bracket.Joins`: a bracket that two ends make, apart from the signs at them
* `Bracket.Crosses`: a function changes its sign on a bracket
* `KeepsSignChange`: every bracket of a run is one on which the function changes its sign
* `LosesSignChange`: a product on which a run relies has vanished

## Main results

* `oppositeSign_halve_iff`: what one halving does to a sign change
* `Follows.crosses_iff`: what a run does to it
* `keepsSignChange_iff`: a run keeps the sign change unless such a product vanishes
-/

namespace EquationSolver.Root

open Double

variable {f : Evaluable Float} {tol : Float} {budget : Nat} {a b : Option Float}
  {s s' : Bracket Float} {x fx : Float} {r : Record Float} {steps : List (Record Float)}
  {run : History Float} {outcome : Outcome Float}

/-! ## Brackets -/

/-- Two ends make a bracket of limited size, apart from the signs of the values at them. -/
structure Bracket.Joins (s : Bracket Float) (f : Evaluable Float) (a b : Option Float) : Prop where
  /-- The left end is given. -/
  left : a = some s.a
  /-- The right end is given. -/
  right : b = some s.b
  /-- The function has its value at the left end. -/
  leftValue : f s.a = .ok s.fa
  /-- The function has its value at the right end. -/
  rightValue : f s.b = .ok s.fb
  /-- The ends are in order. -/
  order : s.a < s.b
  /-- No end and no value counts as diverged. -/
  sized : ¬ s.IsOversized

/-- A function changes its sign between the ends of a bracket. -/
structure Bracket.Crosses (s : Bracket Float) (f : Evaluable Float) : Prop where
  /-- The function has its value at the left end. -/
  left : f s.a = .ok s.fa
  /-- The function has its value at the right end. -/
  right : f s.b = .ok s.fb
  /-- One value is positive, and the other one is negative. -/
  opposite : OppositeSign s.fa s.fb

/-- What is left of a bracket after it was halved at the recorded points. -/
def Bracket.halved (s : Bracket Float) (steps : List (Record Float)) : Bracket Float :=
  steps.foldl (fun s r => s.halve r.x r.fx) s

theorem Bracket.halved_snoc (s : Bracket Float) (steps : List (Record Float)) (r : Record Float) :
    s.halved (steps ++ [r]) = (s.halved steps).halve r.x r.fx := by
  rw [halved, halved, List.foldl_append]
  rfl

/-! ## What a run has to keep -/

/-- A run from a bracket succeeds, but it has met no zero. -/
structure SucceedsByWidth (s : Bracket Float) (run : History Float) : Prop where
  /-- It ends with a root. -/
  success : ∃ root k, run.outcome = .success root k
  /-- The left end of the bracket is no zero. -/
  left : (s.fa == 0) = false
  /-- The right end of the bracket is no zero. -/
  right : (s.fb == 0) = false
  /-- No recorded point is a zero. -/
  points : ∀ r ∈ run.trace, (r.fx == 0) = false

/-- Behind some of its records a run goes on with others, or it succeeds by width. -/
def PassesOn (s : Bracket Float) (run : History Float) (after : List (Record Float)) : Prop :=
  after ≠ [] ∨ SucceedsByWidth s run

/-- Bisection between two ends never loses the sign change. -/
structure KeepsSignChange (f : Evaluable Float) (tol : Float) (budget : Nat)
    (a b : Option Float) : Prop where
  /-- It refuses ends at which the function has the same sign. -/
  refuses : ∀ s : Bracket Float, s.Joins f a b → SameSign s.fa s.fb →
    bisection f tol budget a b = .ended (.invalid .sameSign)
  /-- The function changes its sign on every recorded bracket. -/
  recorded : ∀ r ∈ (bisection f tol budget a b).trace,
    ∃ s : Bracket Float, r.a = some s.a ∧ r.b = some s.b ∧ s.Crosses f
  /-- A root that is found by width is the midpoint of a bracket within the tolerance, on which the
  function changes its sign. -/
  enclosed : ∀ s : Bracket Float, s.Joins f a b →
    SucceedsByWidth s (bisection f tol budget a b) →
    ∃ kept, kept = s.halved (bisection f tol budget a b).trace ∧ kept.width ≤ tol ∧
      kept.Crosses f ∧ ∃ k, (bisection f tol budget a b).outcome = .success kept.midpoint k

/-- A product vanishes on whose sign bisection between two ends relies. -/
inductive LosesSignChange (f : Evaluable Float) (tol : Float) (budget : Nat) (a b : Option Float) :
    Prop where
  /-- It is that of the values at the ends, which have the same sign. -/
  | atStart {s : Bracket Float} (joins : s.Joins f a b) (same : SameSign s.fa s.fb)
    (vanishes : ProductVanishes s.fa s.fb)
  /-- It is that of the value at a recorded point and of the value at the left end, which has the
  opposite sign, and the run goes on from there or succeeds by width. -/
  | onTheWay {s : Bracket Float} {before after : List (Record Float)} {r : Record Float}
    {l fl : Float} (joins : s.Joins f a b)
    (split : (bisection f tol budget a b).trace = before ++ r :: after)
    (later : PassesOn s (bisection f tol budget a b) after)
    (left : r.a = some l) (value : f l = .ok fl) (opposite : OppositeSign fl r.fx)
    (vanishes : ProductVanishes fl r.fx)

/-! ## The start -/

theorem finite_of_not_isOversized (h : ¬ s.IsOversized) :
    s.fa.isFinite = true ∧ s.fb.isFinite = true := by
  simp only [Bracket.IsOversized, not_or, not_isRunaway_iff] at h
  exact ⟨h.2.1.1, h.2.2.2.1⟩

/-- Two ends of limited size make a bracket unless their values seem to have the same sign. -/
theorem bracket?_of_joins (h : s.Joins f a b) :
    bracket? f a b = if 0 < s.fa * s.fb then .error (.invalid .sameSign) else .ok s := by
  obtain ⟨rfl, rfl, left, right, order, sized⟩ := h
  obtain ⟨finiteLeft, finiteRight⟩ := finite_of_not_isOversized sized
  have finite : ¬ (Scalar.isFinite s.fa = false ∨ Scalar.isFinite s.fb = false) := by
    change ¬ (s.fa.isFinite = false ∨ s.fb.isFinite = false)
    rw [finiteLeft, finiteRight]
    decide
  have refusal : s.refusal? = if 0 < s.fa * s.fb then some (.invalid .sameSign) else none := by
    rw [Bracket.refusal?, if_neg finite, if_neg sized]
  rw [bracket?_of_values order left right, refusal]
  by_cases seems : 0 < s.fa * s.fb
  · rw [if_pos seems, if_pos seems]
  · rw [if_neg seems, if_neg seems]

theorem joins_of_bracket?_eq_ok (h : bracket? f a b = .ok s) : s.Joins f a b := by
  obtain ⟨left, right, order, leftValue, rightValue, fits⟩ := of_bracket?_eq_ok h
  refine ⟨left, right, leftValue, rightValue, order, fun oversized => ?_⟩
  rw [Bracket.refusal?, if_pos oversized] at fits
  split at fits
  · cases fits
  · cases fits

/-- Two ends make only one bracket. -/
theorem eq_of_joins (h : bracket? f a b = .ok s) (joins : s'.Joins f a b) : s' = s := by
  rw [bracket?_of_joins joins] at h
  split at h
  · cases h
  · exact Except.ok.inj h

theorem bisection_of_refused (h : bracket? f a b = .error outcome) :
    bisection f tol budget a b = .ended outcome := by
  rw [bisection, h]

/-! ## One halving -/

/-- If two values have opposite signs, one in between has that of the first or that of the
second. -/
theorem oppositeSign_right_iff {x y z : Float} (hx : x.isFinite = true) (hy : y.isFinite = true)
    (hz : z.isFinite = true) (away : (y == 0) = false) (change : OppositeSign x z) :
    OppositeSign y z ↔ ¬ OppositeSign x y := by
  rw [oppositeSign_iff hx hz] at change
  rw [oppositeSign_iff hy hz, oppositeSign_iff hx hy]
  refine change_right_iff change fun zero => ?_
  have none : (y == 0) = true := (beq_iff hy (by decide)).mpr (zero.trans number_zero.symm)
  rw [none] at away
  cases away

/-- Two values that are not zero have opposite signs unless they have the same one. -/
theorem oppositeSign_of_not_sameSign {x y : Float} (hx : x.isFinite = true)
    (hy : y.isFinite = true) (away : ¬ ((x == 0) = true ∨ (y == 0) = true))
    (different : ¬ SameSign x y) : OppositeSign x y := by
  rw [beq_iff hx (by decide), beq_iff hy (by decide), number_zero, ← mul_eq_zero] at away
  rw [sameSign_iff hx hy, not_lt] at different
  exact (oppositeSign_iff hx hy).mpr (lt_of_le_of_ne different away)

/-- **One halving keeps the sign change unless a product vanishes** on the side where it is. -/
theorem oppositeSign_halve_iff (left : s.fa.isFinite = true) (right : s.fb.isFinite = true)
    (finite : fx.isFinite = true) (away : (fx == 0) = false) (change : OppositeSign s.fa s.fb) :
    OppositeSign (s.halve x fx).fa (s.halve x fx).fb ↔
      ¬ (OppositeSign s.fa fx ∧ ProductVanishes s.fa fx) := by
  rw [Bracket.halve]
  split
  · -- The left half is kept, where the product shows a sign change.
    rename_i shown
    obtain ⟨opposite, large⟩ := (mul_lt_zero_iff left finite).mp shown
    exact iff_of_true opposite fun lost => large lost.2
  · -- The right half is kept, and the sign change may be in the left half all the same.
    rename_i hidden
    rw [mul_lt_zero_iff left finite, not_and, not_not] at hidden
    exact (oppositeSign_right_iff left finite right away change).trans
      (not_congr ⟨fun opposite => ⟨opposite, hidden opposite⟩, And.left⟩)

/-- The values of a bracket are those of the function at its ends, and finite. -/
structure Bracket.Samples (s : Bracket Float) (f : Evaluable Float) : Prop where
  /-- The value at the left end. -/
  left : f s.a = .ok s.fa ∧ s.fa.isFinite = true
  /-- The value at the right end. -/
  right : f s.b = .ok s.fb ∧ s.fb.isFinite = true

namespace Bracket.Samples

theorem of_joins (h : s.Joins f a b) : s.Samples f :=
  ⟨⟨h.leftValue, (finite_of_not_isOversized h.sized).1⟩,
    ⟨h.rightValue, (finite_of_not_isOversized h.sized).2⟩⟩

theorem halve (h : s.Samples f) (value : f x = .ok fx) (finite : fx.isFinite = true) :
    (s.halve x fx).Samples f := by
  rw [Bracket.halve]
  split
  · exact ⟨h.left, ⟨value, finite⟩⟩
  · exact ⟨⟨value, finite⟩, h.right⟩

theorem halved (h : s.Samples f) (values : ∀ r ∈ steps, f r.x = .ok r.fx)
    (finite : ∀ r ∈ steps, r.fx.isFinite = true) : (s.halved steps).Samples f := by
  induction steps generalizing s with
  | nil => exact h
  | cons r steps ih =>
    rw [List.forall_mem_cons] at values finite
    exact ih (h.halve values.1 finite.1) values.2 finite.2

end Bracket.Samples

/-! ## Runs -/

/-- How the records and the outcome of a run follow from the bracket that it starts from. -/
structure Follows (f : Evaluable Float) (tol : Float) (s : Bracket Float)
    (run : History Float) : Prop where
  /-- The bracket was not refused. -/
  accepted : run.outcome ≠ .invalid .sameSign
  /-- A run from a zero records nothing. -/
  zero : (s.fa == 0) = true ∨ (s.fb == 0) = true → run.trace = []
  /-- Every record is made from what the records before it left of the bracket. -/
  made : ∀ before r after, run.trace = before ++ r :: after →
    (bisectionScheme f).Makes (before.length + 1) (s.halved before) r
  /-- No point before the last one has diverged or is a zero. -/
  goesOn : ∀ before r after, run.trace = before ++ r :: after → after ≠ [] →
    r.fx.isFinite = true ∧ (r.fx == 0) = false
  /-- A success by width has no point that has diverged, and the midpoint of what is left is its
  root. -/
  width : SucceedsByWidth s run → (∀ r ∈ run.trace, r.fx.isFinite = true) ∧
    (s.halved run.trace).width ≤ tol ∧ ∃ k, run.outcome = .success (s.halved run.trace).midpoint k

theorem finite_of_not_isRunaway (h : ¬ (IsRunaway x ∨ IsRunaway fx)) : fx.isFinite = true := by
  rw [not_or, not_isRunaway_iff, not_isRunaway_iff] at h
  exact h.2.1

/-- A run that ends before its first iteration follows from its bracket. -/
theorem follows_ended {root : Float}
    (found : (s.fa == 0) = true ∨ (s.fb == 0) = true ∨ s.width ≤ tol ∧ root = s.midpoint) :
    Follows f tol s (.ended (.success root 0)) where
  accepted := nofun
  zero _ := rfl
  made before r after split := by cases before <;> cases split
  goesOn before r after split := by cases before <;> cases split
  width byWidth := by
    rcases found with zero | zero | ⟨narrow, rfl⟩
    · exact absurd zero (Bool.eq_false_iff.mp byWidth.left)
    · exact absurd zero (Bool.eq_false_iff.mp byWidth.right)
    · exact ⟨List.forall_mem_nil _, narrow, 0, rfl⟩

theorem of_goesOn (h : (bisectionScheme f).GoesOn tol s r) :
    r.fx.isFinite = true ∧ (r.fx == 0) = false :=
  ⟨finite_of_not_isRunaway h.1, Bool.eq_false_iff.mpr (not_or.mp h.2).1⟩

/-- A run does not find out in an iteration that it should not have started. -/
theorem accepted_of_ends (h : (bisectionScheme f).Ends tol budget s steps outcome) :
    outcome ≠ .invalid .sameSign := by
  cases h with
  | spent | runaway | found => exact nofun
  | @stuck _ obstacle =>
    -- What stops the first iteration is a missing value, and not the signs of the start.
    rcases obstacle.outcome_cases (steps.length + 1) with ⟨_, same⟩ | ⟨-, _, _, _, same⟩
    · rw [same]
      exact nofun
    · rw [same]
      exact nofun

/-- A run that found a root and met no zero has halved the bracket down to the tolerance. -/
theorem width_of_ends {root : Float} {k : Nat}
    (h : (bisectionScheme f).Ends tol budget s steps outcome) (success : outcome = .success root k)
    (away : ∀ r ∈ steps, (r.fx == 0) = false) :
    (∀ r ∈ steps, r.fx.isFinite = true) ∧ (s.halved steps).width ≤ tol ∧
      root = (s.halved steps).midpoint := by
  cases h with
  | spent | runaway => cases success
  | @stuck _ obstacle =>
    rcases obstacle.outcome_cases (steps.length + 1) with ⟨_, same⟩ | ⟨-, _, _, _, same⟩
    · rw [same] at success
      cases success
    · rw [same] at success
      cases success
  | @found steps r onward lt made sized stops =>
    rw [List.forall_mem_append, List.forall_mem_singleton] at away ⊢
    cases success
    refine ⟨⟨fun r mem => ?_, finite_of_not_isRunaway sized⟩, ?_, ?_⟩
    · obtain ⟨before, after, split⟩ := List.append_of_mem mem
      exact (of_goesOn (onward before r after split).2).1
    -- The last point is no zero either, so that it was the width that passed the test.
    · rw [Bracket.halved_snoc]
      exact stops.resolve_left (Bool.eq_false_iff.mp away.2)
    · rw [Bracket.halved_snoc]
      exact if_neg (Bool.eq_false_iff.mp away.2)

/-- A run of bisection follows from the bracket that it starts from. -/
theorem follows_bisection (h : bracket? f a b = .ok s) :
    Follows f tol s (bisection f tol budget a b) := by
  rw [bisection, h]
  dsimp only
  by_cases left : (s.fa == 0) = true
  · rw [if_pos left]
    exact follows_ended (.inl left)
  by_cases right : (s.fb == 0) = true
  · rw [if_neg left, if_pos right]
    exact follows_ended (.inr (.inl right))
  by_cases narrow : s.width ≤ tol
  · rw [if_neg left, if_neg right, if_pos narrow]
    exact follows_ended (.inr (.inr ⟨narrow, rfl⟩))
  rw [if_neg left, if_neg right, if_neg narrow, bisectionTurn_eq]
  have ends := (bisectionScheme f).ends_iterate tol budget s rfl
  exact {
    accepted := accepted_of_ends ends
    zero := fun zero => (zero.elim left right).elim
    made := ends.made
    goesOn := fun before r after split later => of_goesOn (ends.goesOn before r after split later)
    width := by
      intro byWidth
      obtain ⟨root, k, success⟩ := byWidth.success
      obtain ⟨finite, within, rfl⟩ := width_of_ends ends success byWidth.points
      exact ⟨finite, within, k, success⟩ }

namespace Follows

variable (h : Follows f tol s run)
include h

/-- A recorded point from which the run goes on, or with which it succeeds by width, has a value
with a sign. -/
theorem later {before after : List (Record Float)} (split : run.trace = before ++ r :: after)
    (later : PassesOn s run after) :
    r.fx.isFinite = true ∧ (r.fx == 0) = false := by
  rcases later with later | byWidth
  · exact h.goesOn before r after split later
  · have mem : r ∈ run.trace := by
      rw [split]
      exact List.mem_append_right _ List.mem_cons_self
    exact ⟨(h.width byWidth).1 r mem, byWidth.points r mem⟩

/-- The brackets that a run holds have the values of the function at their ends. -/
theorem samples (samples : s.Samples f) {before after : List (Record Float)}
    (split : run.trace = before ++ after) (later : PassesOn s run after) :
    (s.halved before).Samples f := by
  -- Each of the records before is followed by what comes after, or the run succeeds by width.
  have passed {r : Record Float} (mem : r ∈ before) :
      f r.x = .ok r.fx ∧ r.fx.isFinite = true := by
    obtain ⟨front, back, rfl⟩ := List.append_of_mem mem
    rw [List.append_assoc, List.cons_append] at split
    refine ⟨(h.made _ _ _ split).value, (h.later split (later.imp_left fun some => ?_)).1⟩
    exact fun none => some (List.append_eq_nil_iff.mp none).2
  exact samples.halved (fun r mem => (passed mem).1) fun r mem => (passed mem).2

/-- **A run keeps the sign change unless it passes a point where a product vanishes.** -/
theorem crosses_iff (samples : s.Samples f) (opposite : OppositeSign s.fa s.fb) :
    (∀ before after, run.trace = before ++ after → PassesOn s run after →
      OppositeSign (s.halved before).fa (s.halved before).fb) ↔
    ∀ before r after, run.trace = before ++ r :: after → PassesOn s run after →
      ¬ (OppositeSign (s.halved before).fa r.fx ∧
        ProductVanishes (s.halved before).fa r.fx) := by
  -- At a point that the run passes, the bracket before it and the one after it are compared.
  have step {before after : List (Record Float)} {r : Record Float}
      (split : run.trace = before ++ r :: after) (later : PassesOn s run after)
      (change : OppositeSign (s.halved before).fa (s.halved before).fb) :
      OppositeSign (s.halved (before ++ [r])).fa (s.halved (before ++ [r])).fb ↔
        ¬ (OppositeSign (s.halved before).fa r.fx ∧
          ProductVanishes (s.halved before).fa r.fx) := by
    obtain ⟨left, right⟩ := h.samples samples split (.inl (List.cons_ne_nil r after))
    obtain ⟨finite, away⟩ := h.later split later
    rw [Bracket.halved_snoc]
    exact oppositeSign_halve_iff left.2 right.2 finite away change
  have onward {before after : List (Record Float)} {r : Record Float} :
      run.trace = before ++ r :: after ↔ run.trace = (before ++ [r]) ++ after := by
    rw [List.append_assoc, List.singleton_append]
  constructor
  · intro keeps before r after split later
    exact (step split later (keeps before _ split (.inl (List.cons_ne_nil r after)))).mp
      (keeps _ after (onward.mp split) later)
  · -- The sign change is followed through the records before, from the first one to the last.
    intro shown before
    induction before using List.reverseRecOn with
    | nil => exact fun _ _ _ => opposite
    | append_singleton before r ih =>
      intro after split later
      rw [← onward] at split
      exact (step split later (ih _ split (.inl (List.cons_ne_nil r after)))).mpr
        (shown before r after split later)

end Follows

/-! ## The sign change of a run -/

theorem keepsSignChange_of_refused (start : bracket? f a b = .error outcome) :
    KeepsSignChange f tol budget a b := by
  have ended : bisection f tol budget a b = .ended outcome := bisection_of_refused start
  have refused {s : Bracket Float} (joins : s.Joins f a b) : outcome = .invalid .sameSign := by
    rw [bracket?_of_joins joins] at start
    split at start
    · exact (Except.error.inj start).symm
    · cases start
  exact {
    refuses := fun s joins _ => by rw [ended, refused joins]
    recorded := by
      rw [ended]
      exact List.forall_mem_nil _
    enclosed := by
      intro s joins byWidth
      obtain ⟨root, k, success⟩ := byWidth.success
      rw [ended, refused joins] at success
      cases success }

theorem not_losesSignChange_of_refused (start : bracket? f a b = .error outcome) :
    ¬ LosesSignChange f tol budget a b := by
  intro loses
  cases loses with
  | atStart joins same vanishes =>
    obtain ⟨left, right⟩ := finite_of_not_isOversized joins.sized
    have seems := mt (zero_lt_mul_iff left right).mp fun above => above.2 vanishes
    rw [bracket?_of_joins joins, if_neg seems] at start
    cases start
  | @onTheWay s before after r _ _ _ split =>
    rw [bisection_of_refused start] at split
    cases before <;> cases split

/-- A record shows the bracket that it was made from. -/
theorem ends_of_made {k : Nat} (h : (bisectionScheme f).Makes k s r) :
    r.a = some s.a ∧ r.b = some s.b :=
  ⟨congrArg Record.a h.record, congrArg Record.b h.record⟩

/-- A run from a sign change keeps it exactly if there is one on every bracket that it holds. -/
theorem keepsSignChange_iff_held (start : bracket? f a b = .ok s)
    (different : ¬ SameSign s.fa s.fb) :
    KeepsSignChange f tol budget a b ↔
      ∀ before after, (bisection f tol budget a b).trace = before ++ after →
        PassesOn s (bisection f tol budget a b) after →
        OppositeSign (s.halved before).fa (s.halved before).fb := by
  have joins := joins_of_bracket?_eq_ok start
  have follows : Follows f tol s (bisection f tol budget a b) := follows_bisection start
  have samples := Bracket.Samples.of_joins joins
  constructor
  · intro keeps before after split later
    cases after with
    | nil =>
      -- No record shows the last bracket, but a success by width tells of it.
      obtain ⟨_, rfl, -, crosses, -⟩ := keeps.enclosed s joins (later.resolve_left fun h => h rfl)
      rw [List.append_nil] at split
      rw [← split]
      exact crosses.opposite
    | cons r after =>
      have mem : r ∈ (bisection f tol budget a b).trace := by
        rw [split]
        exact List.mem_append_right _ List.mem_cons_self
      -- The recorded ends determine the bracket, and the function its values.
      obtain ⟨⟨l, fl, u, fu⟩, left, right, crosses⟩ := keeps.recorded r mem
      obtain ⟨left', right'⟩ := ends_of_made (follows.made _ _ _ split)
      have held := follows.samples samples split later
      obtain rfl := Option.some.inj (left'.symm.trans left)
      obtain rfl := Option.some.inj (right'.symm.trans right)
      obtain rfl := Except.ok.inj (held.left.1.symm.trans crosses.left)
      obtain rfl := Except.ok.inj (held.right.1.symm.trans crosses.right)
      exact crosses.opposite
  · intro held
    have crosses {before after : List (Record Float)}
        (split : (bisection f tol budget a b).trace = before ++ after)
        (later : PassesOn s (bisection f tol budget a b) after) :
        (s.halved before).Crosses f :=
      have values := follows.samples samples split later
      ⟨values.left.1, values.right.1, held before after split later⟩
    exact {
      refuses := fun s' joins' same => absurd (eq_of_joins start joins' ▸ same) different
      recorded := by
        intro r mem
        obtain ⟨before, after, split⟩ := List.append_of_mem mem
        obtain ⟨left, right⟩ := ends_of_made (follows.made _ _ _ split)
        exact ⟨s.halved before, left, right, crosses split (.inl (List.cons_ne_nil r after))⟩
      enclosed := by
        intro s' joins' byWidth
        rw [eq_of_joins start joins'] at byWidth ⊢
        obtain ⟨-, narrow, success⟩ := follows.width byWidth
        exact ⟨_, rfl, narrow, crosses (List.append_nil _).symm (.inr byWidth), success⟩ }

/-- A run from a sign change loses it exactly if it passes a point where a product vanishes. -/
theorem losesSignChange_iff_passed (start : bracket? f a b = .ok s)
    (different : ¬ SameSign s.fa s.fb) :
    LosesSignChange f tol budget a b ↔
      ∃ before r after, (bisection f tol budget a b).trace = before ++ r :: after ∧
        PassesOn s (bisection f tol budget a b) after ∧
        OppositeSign (s.halved before).fa r.fx ∧
        ProductVanishes (s.halved before).fa r.fx := by
  have joins := joins_of_bracket?_eq_ok start
  have follows : Follows f tol s (bisection f tol budget a b) := follows_bisection start
  have samples := Bracket.Samples.of_joins joins
  constructor
  · intro loses
    cases loses with
    | atStart joins' same vanishes => exact absurd (eq_of_joins start joins' ▸ same) different
    | @onTheWay s' before after r l fl joins' split later left value opposite vanishes =>
      obtain rfl := eq_of_joins start joins'
      obtain ⟨left', -⟩ := ends_of_made (follows.made _ _ _ split)
      have held := follows.samples samples split (.inl (List.cons_ne_nil r after))
      obtain rfl := Option.some.inj (left'.symm.trans left)
      obtain rfl := Except.ok.inj (held.left.1.symm.trans value)
      exact ⟨before, r, after, split, later, opposite, vanishes⟩
  · rintro ⟨before, r, after, split, later, opposite, vanishes⟩
    have held := follows.samples samples split (.inl (List.cons_ne_nil r after))
    exact .onTheWay joins split later (ends_of_made (follows.made _ _ _ split)).1 held.left.1
      opposite vanishes

/-- **Bisection keeps its sign change unless a product vanishes on which it relies**, for every
function, tolerance and budget and between any two ends. The products are those of two values that
differ in sign, in the halvings, and that of two values of the same sign at the start. -/
theorem keepsSignChange_iff (f : Evaluable Float) (tol : Float) (budget : Nat)
    (a b : Option Float) :
    KeepsSignChange f tol budget a b ↔ ¬ LosesSignChange f tol budget a b := by
  rcases start : bracket? f a b with outcome | s
  · exact iff_of_true (keepsSignChange_of_refused start) (not_losesSignChange_of_refused start)
  have joins := joins_of_bracket?_eq_ok start
  have follows : Follows f tol s (bisection f tol budget a b) := follows_bisection start
  obtain ⟨left, right⟩ := finite_of_not_isOversized joins.sized
  by_cases same : SameSign s.fa s.fb
  · -- The bracket was accepted all the same, so that the product of its values has vanished.
    have seems : ¬ 0 < s.fa * s.fb := by
      intro seems
      rw [bracket?_of_joins joins, if_pos seems] at start
      cases start
    rw [zero_lt_mul_iff left right, not_and, not_not] at seems
    refine iff_of_false (fun keeps => follows.accepted ?_)
      (not_not.mpr (.atStart joins same (seems same)))
    rw [keeps.refuses s joins same]
    rfl
  by_cases zero : (s.fa == 0) = true ∨ (s.fb == 0) = true
  · -- A run from a zero records nothing, so that there is nothing to keep.
    have nothing := follows.zero zero
    have found : ¬ SucceedsByWidth s (bisection f tol budget a b) := fun byWidth =>
      zero.elim (Bool.eq_false_iff.mp byWidth.left) (Bool.eq_false_iff.mp byWidth.right)
    rw [keepsSignChange_iff_held start same, losesSignChange_iff_passed start same, nothing]
    simp [PassesOn, found]
  · -- Otherwise the start is a sign change, which the run takes from bracket to bracket.
    have opposite : OppositeSign s.fa s.fb := oppositeSign_of_not_sameSign left right zero same
    rw [keepsSignChange_iff_held start same, losesSignChange_iff_passed start same,
      follows.crosses_iff (.of_joins joins) opposite]
    simp only [not_exists, not_and]

/-- A line through `0.3`, so flat that the product of any two of its values on `[0, 1]`
vanishes. -/
def flatLine : Evaluable Float := fun x => .ok (1e-200 * (x - 0.3))

/-- The first halving keeps the right half, on which the line is positive. -/
theorem not_keepsSignChange_flatLine :
    ¬ KeepsSignChange flatLine 1e-6 100 (some 0) (some 1) := by
  intro keeps
  have second : (bisection flatLine 1e-6 100 (some 0) (some 1)).trace[1]?.map
      (fun r => (r.a, r.b)) = some (some 0.5, some 1) := by decide +kernel
  obtain ⟨r, found, ends⟩ := Option.map_eq_some_iff.mp second
  obtain ⟨⟨l, fl, u, fu⟩, left, right, crosses⟩ := keeps.recorded r (List.mem_of_getElem? found)
  obtain ⟨rfl, rfl⟩ : l = 0.5 ∧ u = 1 := by simpa [left, right] using ends
  have low : 1e-200 * (0.5 - 0.3) = fl := Except.ok.inj crosses.left
  have high : 1e-200 * (1 - 0.3) = fu := Except.ok.inj crosses.right
  subst low high
  have same : ¬ OppositeSign (1e-200 * (0.5 - 0.3)) (1e-200 * (1 - 0.3)) := by
    unfold OppositeSign
    decide +kernel
  exact same crosses.opposite

end EquationSolver.Root
