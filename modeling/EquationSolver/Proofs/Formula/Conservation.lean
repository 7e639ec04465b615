import EquationSolver.Proofs.Formula.Parentheses
import EquationSolver.Proofs.Formula.ShuntingYard

/-!
# The reordering loses and invents nothing

Any row of tokens can be brought into postfix order, whether or not it is a formula, as long as its
parentheses match and its operators have a precedence. Whether parentheses match can be told by
counting: no front of the row closes more of them than it opens, and the whole row closes as many.

One token either goes on with another stack, which leaves as many parentheses open as the token
says, or it closes a parenthesis where none is open. So the run ends in success or in the one error
that the count foretells.

## Main definitions

* `Unbalanced`: the parentheses of a row do not match

## Main results

* `balanced_zero_iff`: parentheses have partners when the count says so
* `emits_or_stops`, `postfixFrom_cases`: what one token does to the stack, and what a row comes to
* `operands_of_postfixFrom`: numbers and variables stay in order
* `toPostfix_conserves`: when a row can be reordered, and what it is then
-/

namespace EquationSolver

variable {t : Token} {stack ts out : List Token}

/-! ## Counting parentheses -/

/-- The closing parentheses of a row. -/
def closingParens (ts : List Token) : Nat := ts.countP (·.kind == .rightParen)

/-- Some front of the row closes more parentheses than it opens, or the whole row does not close as
many as it opens. -/
def Unbalanced (ts : List Token) : Prop :=
  (∃ front, front <+: ts ∧ openParens front < closingParens front) ∨
    openParens ts ≠ closingParens ts

theorem openParens_cons (t : Token) (ts : List Token) :
    openParens (t :: ts) = openParens ts + if t.kind = .leftParen then 1 else 0 := by
  simp [openParens, List.countP_cons]

theorem closingParens_cons (t : Token) (ts : List Token) :
    closingParens (t :: ts) = closingParens ts + if t.kind = .rightParen then 1 else 0 := by
  simp [closingParens, List.countP_cons]

/-- The fronts of a row are the empty one and those with the first token. -/
theorem forall_front_cons {P : List Token → Prop} {t : Token} {rest : List Token} :
    (∀ front, front <+: t :: rest → P front) ↔ P [] ∧ ∀ front, front <+: rest → P (t :: front) := by
  constructor
  · intro all
    exact ⟨all [] List.nil_prefix, fun front h => all _ (List.cons_prefix_cons.mpr ⟨rfl, h⟩)⟩
  · rintro ⟨none, some⟩ front h
    rcases List.prefix_cons_iff.mp h with rfl | ⟨front, rfl, within⟩
    · exact none
    · exact some front within

/-- Every closing parenthesis has a partner when no front closes more than are open before it and
opened in it. -/
theorem balanced_iff {depth : Nat} : Balanced depth ts ↔
    (∀ front, front <+: ts → closingParens front ≤ depth + openParens front) ∧
      depth + openParens ts = closingParens ts := by
  induction ts generalizing depth with
  | nil => simp [Balanced, closingParens, openParens]
  | cons t rest ih =>
    rw [forall_front_cons]
    simp only [openParens_cons, closingParens_cons]
    by_cases left : t.kind = .leftParen
    · rw [balanced_leftParen left, ih]
      simp [closingParens, openParens, left, Nat.add_assoc, Nat.add_comm 1]
    by_cases right : t.kind = .rightParen
    · rw [balanced_rightParen right, ih]
      cases depth with
      | zero =>
        -- The closing parenthesis alone is a front that closes too many.
        simp only [Nat.lt_irrefl, false_and, false_iff]
        rintro ⟨⟨-, fronts⟩, -⟩
        simpa [right, left, closingParens, openParens] using fronts [] List.nil_prefix
      | succ depth =>
        simp [right, closingParens, openParens, Nat.add_right_comm depth 1]
    · rw [balanced_other (Token.isParen_eq_false.mpr ⟨left, right⟩), ih]
      simp [closingParens, openParens, left, right]

/-- With none open before the row, parentheses have partners unless the count denies it. -/
theorem balanced_zero_iff : Balanced 0 ts ↔ ¬ Unbalanced ts := by
  rw [balanced_iff, Unbalanced]
  simp only [Nat.zero_add, not_or, not_exists, not_and, not_lt, not_not, ne_eq]

instance decidableBalanced : (depth : Nat) → (ts : List Token) → Decidable (Balanced depth ts)
  | depth, [] => inferInstanceAs (Decidable (depth = 0))
  | depth, t :: rest =>
    have := decidableBalanced (depth + 1) rest
    have := decidableBalanced (depth - 1) rest
    have := decidableBalanced depth rest
    inferInstanceAs (Decidable (if t.kind = .leftParen then Balanced (depth + 1) rest
      else if t.kind = .rightParen then 0 < depth ∧ Balanced (depth - 1) rest
      else Balanced depth rest))

instance : DecidablePred Unbalanced := fun ts =>
  decidable_of_iff (¬ Balanced 0 ts) (by rw [balanced_zero_iff, not_not])

/-! ## One token -/

/-- A closing parenthesis takes something off the stack unless none is open. -/
theorem closeParen_cases (stack : List Token) :
    (openParens stack = 0 ∧ closeParen stack = .error .unbalanced) ∨
      ∃ released waiting, closeParen stack = .ok (released, waiting) := by
  unfold closeParen
  rcases below : stack.dropWhile (·.kind != .leftParen) with _ | ⟨p, _ | ⟨f, rest⟩⟩
  · refine .inl ⟨?_, by simp only [below]⟩
    rw [List.dropWhile_eq_nil_iff] at below
    simpa [openParens] using below
  · exact .inr ⟨_, _, by simp only [below]; rfl⟩
  · exact .inr ⟨_, _, by simp only [below]; rfl⟩

/-- An operator releases no parenthesis. -/
theorem openParens_dropWhile_yieldsTo (op : Operator) (stack : List Token) :
    openParens (stack.dropWhile (Token.yieldsTo op)) = openParens stack := by
  have released : (stack.takeWhile (Token.yieldsTo op)).countP (·.kind == .leftParen) = 0 := by
    rw [List.countP_eq_zero]
    intro u hu paren
    have yields := List.mem_takeWhile_imp hu
    rw [beq_iff_eq] at paren
    simp [Token.yieldsTo, paren] at yields
  have whole := congrArg openParens
    (List.takeWhile_append_dropWhile (p := Token.yieldsTo op) (l := stack))
  simpa only [openParens, List.countP_append, released, Nat.zero_add] using whole

theorem Token.kind_cases (t : Token) : t.isOperand ∨ t.kind = .function ∨ t.kind = .leftParen ∨
    t.kind = .operator ∨ t.kind = .rightParen := by
  cases kind : t.kind <;> simp [isOperand, kind]

/-- One token goes on with another stack and leaves the question of partners to the tokens behind
it, or it closes a parenthesis where none is open. -/
theorem emits_or_stops (known : t.kind = .operator → ∃ op, Operator.ofText? t.text = some op)
    (stack : List Token) :
    (∃ released stack', Emits stack [t] released stack' ∧
      ∀ rest, Balanced (openParens stack) (t :: rest) ↔ Balanced (openParens stack') rest) ∨
    ∀ rest, ¬ Balanced (openParens stack) (t :: rest) ∧
      postfixFrom stack (t :: rest) = .error .unbalanced := by
  rcases t.kind_cases with operand | kind | kind | kind | kind
  · -- An operand is put out.
    exact .inl ⟨[t], stack, .operand operand stack,
      balanced_other (Token.isParen_of_isOperand operand) _⟩
  · -- A function waits, and so does an opening parenthesis, which is then open.
    refine .inl ⟨[], t :: stack, .push (.inl kind) stack, fun rest => ?_⟩
    rw [balanced_other (by simp [Token.isParen, kind])]
    simp [openParens_cons, kind]
  · refine .inl ⟨[], t :: stack, .push (.inr kind) stack, fun rest => ?_⟩
    rw [balanced_leftParen kind, openParens_cons, if_pos kind]
  · -- An operator waits in the place of what it releases.
    obtain ⟨op, known⟩ := known kind
    refine .inl ⟨_, _, .release kind known stack, fun rest => ?_⟩
    rw [balanced_other (by simp [Token.isParen, kind]), openParens_cons,
      openParens_dropWhile_yieldsTo]
    simp [kind]
  · -- A closing parenthesis needs one that is open.
    rcases closeParen_cases stack with ⟨none, stops⟩ | ⟨released, waiting, closed⟩
    · refine .inr fun rest => ⟨?_, by simp [postfixFrom, kind, stops]⟩
      rw [balanced_rightParen kind, none]
      simp
    · refine .inl ⟨released, waiting, .close kind closed, fun rest => ?_⟩
      rw [balanced_rightParen kind, openParens_of_closeParen closed]
      simp

/-! ## A row of tokens -/

/-- A row is reordered if its parentheses have partners, and is refused as unbalanced otherwise. -/
theorem postfixFrom_cases
    (known : ∀ t ∈ ts, t.kind = .operator → ∃ op, Operator.ofText? t.text = some op)
    (stack : List Token) :
    (Balanced (openParens stack) ts ∧ ∃ out, postfixFrom stack ts = .ok out) ∨
      (¬ Balanced (openParens stack) ts ∧ postfixFrom stack ts = .error .unbalanced) := by
  induction ts generalizing stack with
  | nil =>
    simp only [Balanced, postfixFrom]
    by_cases none : openParens stack = 0
    · refine .inl ⟨none, stack, if_neg ?_⟩
      simpa [openParens] using none
    · refine .inr ⟨none, if_pos ?_⟩
      simpa [openParens] using none
  | cons t rest ih =>
    rw [List.forall_mem_cons] at known
    rcases emits_or_stops known.1 stack with ⟨released, stack', emits, balance⟩ | stops
    · have read := emits rest
      rw [List.singleton_append] at read
      rw [balance, read]
      rcases ih known.2 stack' with ⟨balanced, out, run⟩ | ⟨unbalanced, run⟩
      · exact .inl ⟨balanced, released ++ out, by rw [run]; rfl⟩
      · exact .inr ⟨unbalanced, by rw [run]; rfl⟩
    · exact .inr (stops rest)

/-- Numbers and variables are put out in the order in which they come: none of them waits. -/
theorem operands_of_postfixFrom (h : postfixFrom stack ts = .ok out)
    (waiting : ∀ t ∈ stack, t.isOperand = false) :
    out.filter Token.isOperand = ts.filter Token.isOperand := by
  induction ts generalizing stack out with
  | nil =>
    simp only [postfixFrom] at h
    split at h
    · cases h
    · obtain rfl := Except.ok.inj h
      simpa using waiting
  | cons t rest ih =>
    obtain ⟨released, stack', out', run, rfl, cases⟩ := postfixFrom_cons_eq_ok h
    rcases cases with ⟨operand, rfl, rfl⟩ | ⟨kind, rfl, rfl⟩ | ⟨kind, below, rfl, rfl, -⟩ |
      ⟨kind, closed⟩
    · simp [operand, ih run waiting]
    · -- A token that waits is no operand.
      have other : t.isOperand = false := by
        rcases kind with kind | kind <;> simp [Token.isOperand, kind]
      have waiting' : ∀ u ∈ t :: stack, u.isOperand = false :=
        List.forall_mem_cons.mpr ⟨other, waiting⟩
      simp [other, ih run waiting']
    · -- What an operator releases has waited.
      have other : t.isOperand = false := by simp [Token.isOperand, kind]
      rw [List.forall_mem_append] at waiting
      have waiting' : ∀ u ∈ t :: below, u.isOperand = false :=
        List.forall_mem_cons.mpr ⟨other, waiting.2⟩
      have silent : released.filter Token.isOperand = [] := by simpa using waiting.1
      simp [other, silent, ih run waiting']
    · -- So has what a closing parenthesis releases, and what it leaves.
      have other : t.isOperand = false := by simp [Token.isOperand, kind]
      obtain ⟨p, -, perm, -⟩ := closeParen_eq_ok closed
      have kept : ∀ u ∈ released ++ stack', u.isOperand = false := fun u hu =>
        waiting u (perm.symm.subset (List.mem_cons_of_mem p hu))
      rw [List.forall_mem_append] at kept
      have silent : released.filter Token.isOperand = [] := by simpa using kept.1
      simp [other, silent, ih run kept.2]

/-- **The reordering loses and invents nothing.** Take any row of tokens whose operators are the
five. It is refused, as unbalanced, exactly when some front of it closes more parentheses than it
opens or when it does not close as many as it opens. Otherwise its postfix order has the tokens of
the row without the parentheses, each as often, and the numbers and variables in the same order. -/
theorem toPostfix_conserves
    (known : ∀ t ∈ ts, t.kind = .operator → t.text ∈ Operator.all.map Operator.text) :
    (toPostfix ts = .error .unbalanced ↔ Unbalanced ts) ∧
      (¬ Unbalanced ts → ∃ out, toPostfix ts = .ok out ∧
        out.Perm (ts.filter (!·.isParen)) ∧
        out.filter Token.isOperand = ts.filter Token.isOperand) := by
  have found : ∀ t ∈ ts, t.kind = .operator → ∃ op, Operator.ofText? t.text = some op := by
    intro t ht kind
    obtain ⟨op, -, text⟩ := List.mem_map.mp (known t ht kind)
    exact ⟨op, text ▸ op.ofText?_text⟩
  rcases postfixFrom_cases found [] with ⟨balanced, out, run⟩ | ⟨unmatched, run⟩
  · have balanced : ¬ Unbalanced ts := balanced_zero_iff.mp balanced
    refine ⟨iff_of_false ?_ balanced, fun _ => ⟨out, run, ?_, ?_⟩⟩
    · simp [toPostfix, run]
    · exact perm_of_postfixFrom run (by simp)
    · exact operands_of_postfixFrom run (by simp)
  · have unbalanced : Unbalanced ts := not_not.mp (mt balanced_zero_iff.mpr unmatched)
    exact ⟨iff_of_true run unbalanced, fun balanced => absurd unbalanced balanced⟩

/-- A row that is no formula, for the product in its parentheses has no left side. -/
def malformed : List Token :=
  [⟨.number, "1", 1.0⟩, .ofFunction .sin, .leftParen, .ofOperator .mul, ⟨.number, "2", 2.0⟩,
    .rightParen, .ofVariable, .ofOperator .pow]

theorem toPostfix_conserves_malformed :
    (∃ out, toPostfix malformed = .ok out ∧ out.Perm (malformed.filter (!·.isParen)) ∧
      out.filter Token.isOperand = [⟨.number, "1", 1.0⟩, ⟨.number, "2", 2.0⟩, .ofVariable]) ∧
    toPostfix (.rightParen :: malformed ++ [.leftParen]) = .error .unbalanced :=
  ⟨(toPostfix_conserves (by decide)).2 (by decide),
    (toPostfix_conserves (by decide)).1.mpr (by decide)⟩

/-- The product and the function in front of its parentheses are put out where these close. -/
example : toPostfix malformed = .ok [⟨.number, "1", 1.0⟩, ⟨.number, "2", 2.0⟩, .ofOperator .mul,
    .ofFunction .sin, .ofVariable, .ofOperator .pow] := rfl

end EquationSolver
