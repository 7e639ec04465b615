import EquationSolver.Formula.Postfix
import EquationSolver.Proofs.Formula.Tree
import Mathlib.Data.List.TakeWhile

/-!
# What the reordering keeps

Bringing tokens into postfix order needs balanced parentheses. It drops these and keeps every other
token.

## Main definitions

* `Token.isParen`: the parentheses of both kinds
* `Balanced`: every closing parenthesis has a partner in front, and all are closed in the end

## Main results

* `closeParen_eq_ok`: a closing parenthesis takes its partner off the stack and nothing else
* `balanced_of_postfixFrom`, `perm_of_postfixFrom`: the parentheses of a reordered row are balanced,
  and the other tokens are the same
-/

namespace EquationSolver

/-- A parenthesis of either kind. -/
def Token.isParen (t : Token) : Bool := t.kind == .leftParen || t.kind == .rightParen

theorem Token.isParen_of_isOperand {t : Token} (h : t.isOperand) : t.isParen = false := by
  rcases Token.isOperand_iff.mp h with kind | kind <;> simp [isParen, kind]

/-- Every closing parenthesis has a partner, among `depth` open ones or later, and all are closed in
the end. -/
def Balanced : (depth : Nat) → List Token → Prop
  | depth, [] => depth = 0
  | depth, t :: rest =>
    if t.kind = .leftParen then Balanced (depth + 1) rest
    else if t.kind = .rightParen then 0 < depth ∧ Balanced (depth - 1) rest
    else Balanced depth rest

theorem balanced_leftParen {t : Token} (h : t.kind = .leftParen) (depth : Nat) (rest : List Token) :
    Balanced depth (t :: rest) ↔ Balanced (depth + 1) rest := by simp [Balanced, h]

theorem balanced_rightParen {t : Token} (h : t.kind = .rightParen) (depth : Nat)
    (rest : List Token) : Balanced depth (t :: rest) ↔ 0 < depth ∧ Balanced (depth - 1) rest := by
  simp [Balanced, h]

theorem balanced_other {t : Token} (h : t.isParen = false) (depth : Nat) (rest : List Token) :
    Balanced depth (t :: rest) ↔ Balanced depth rest := by
  simp only [Token.isParen, Bool.or_eq_false_iff, beq_eq_false_iff_ne] at h
  simp [Balanced, h]

/-- The opening parentheses that wait on a stack. -/
def openParens (stack : List Token) : Nat := stack.countP (·.kind == .leftParen)

/-- A closing parenthesis takes its partner off the stack and nothing else. -/
theorem closeParen_eq_ok {stack released waiting : List Token}
    (h : closeParen stack = .ok (released, waiting)) :
    ∃ p : Token, p.kind = .leftParen ∧ stack.Perm (p :: (released ++ waiting)) ∧
      ∀ t ∈ released, t.kind ≠ .leftParen := by
  have inner : ∀ t ∈ stack.takeWhile (·.kind != .leftParen), t.kind ≠ .leftParen := by
    intro t ht
    simpa using List.mem_takeWhile_imp ht
  have whole := List.takeWhile_append_dropWhile (p := (·.kind != .leftParen)) (l := stack)
  have first := List.head?_dropWhile_not (·.kind != .leftParen) stack
  unfold closeParen at h
  rcases below : stack.dropWhile (·.kind != .leftParen) with _ | ⟨p, rest⟩
  · simp [below] at h
  · -- The partner is the first token that is not released.
    rw [below] at whole first
    have partner : p.kind = .leftParen := by simpa using first
    refine ⟨p, partner, ?_⟩
    cases rest with
    | nil =>
      simp only [below, Except.ok.injEq, Prod.mk.injEq] at h
      obtain ⟨rfl, rfl⟩ := h
      refine ⟨(List.Perm.of_eq whole.symm).trans ?_, inner⟩
      simp
    | cons f rest =>
      simp only [below, Except.ok.injEq] at h
      split at h
      · -- A function in front of the partner is released behind what was inside.
        rename_i call
        simp only [Prod.mk.injEq] at h
        obtain ⟨rfl, rfl⟩ := h
        refine ⟨(List.Perm.of_eq whole.symm).trans ?_, ?_⟩
        · simp
        · rw [List.forall_mem_append, List.forall_mem_singleton]
          refine ⟨inner, ?_⟩
          intro kind
          simp [Token.isCall, kind] at call
      · simp only [Prod.mk.injEq] at h
        obtain ⟨rfl, rfl⟩ := h
        exact ⟨(List.Perm.of_eq whole.symm).trans List.perm_middle, inner⟩

theorem openParens_of_closeParen {stack released waiting : List Token}
    (h : closeParen stack = .ok (released, waiting)) :
    openParens stack = openParens waiting + 1 := by
  obtain ⟨p, partner, perm, inner⟩ := closeParen_eq_ok h
  have none : released.countP (·.kind == .leftParen) = 0 := by simpa using inner
  simp only [openParens, perm.countP_eq, List.countP_cons, List.countP_append, partner, none]
  simp

/-- What one token does when tokens are reordered: an operand is put out, a function or an opening
parenthesis waits, an operator releases a part of the stack and waits, and a closing parenthesis
takes its partner away. -/
theorem postfixFrom_cons_eq_ok {stack rest out : List Token} {t : Token}
    (h : postfixFrom stack (t :: rest) = .ok out) :
    ∃ released stack' out', postfixFrom stack' rest = .ok out' ∧ out = released ++ out' ∧
      (t.isOperand ∧ released = [t] ∧ stack' = stack ∨
        (t.kind = .function ∨ t.kind = .leftParen) ∧ released = [] ∧ stack' = t :: stack ∨
        (t.kind = .operator ∧ ∃ below, stack = released ++ below ∧ stack' = t :: below ∧
          ∀ u ∈ released, u.kind ≠ .leftParen) ∨
        t.kind = .rightParen ∧ closeParen stack = .ok (released, stack')) := by
  -- What the token puts out comes before what the rest of the run puts out.
  have later (stack' released : List Token)
      (h : (postfixFrom stack' rest).map (released ++ ·) = .ok out) :
      ∃ out', postfixFrom stack' rest = .ok out' ∧ out = released ++ out' := by
    rcases run : postfixFrom stack' rest with e | out'
    · simp [run, Except.map] at h
    · rw [run] at h
      exact ⟨out', rfl, (Except.ok.inj h).symm⟩
  rw [postfixFrom] at h
  split at h
  · rename_i kind
    obtain ⟨out', run, rfl⟩ := later stack [t] h
    exact ⟨[t], stack, out', run, rfl, .inl ⟨by simp [Token.isOperand, kind], rfl, rfl⟩⟩
  · rename_i kind
    obtain ⟨out', run, rfl⟩ := later stack [t] h
    exact ⟨[t], stack, out', run, rfl, .inl ⟨by simp [Token.isOperand, kind], rfl, rfl⟩⟩
  · rename_i kind
    exact ⟨[], t :: stack, out, h, rfl, .inr (.inl ⟨.inl kind, rfl, rfl⟩)⟩
  · rename_i kind
    exact ⟨[], t :: stack, out, h, rfl, .inr (.inl ⟨.inr kind, rfl, rfl⟩)⟩
  · rename_i kind
    split at h
    · cases h
    · rename_i op _
      obtain ⟨out', run, rfl⟩ := later _ _ h
      refine ⟨_, _, out', run, rfl, .inr (.inr (.inl ⟨kind, _,
        List.takeWhile_append_dropWhile.symm, rfl, ?_⟩))⟩
      intro u hu paren
      have yields : u.yieldsTo op := List.mem_takeWhile_imp hu
      simp [Token.yieldsTo, paren] at yields
  · rename_i kind
    split at h
    · cases h
    · rename_i released waiting closed
      obtain ⟨out', run, rfl⟩ := later _ _ h
      exact ⟨released, waiting, out', run, rfl, .inr (.inr (.inr ⟨kind, closed⟩))⟩

/-- The parentheses of a reordered row are balanced. -/
theorem balanced_of_postfixFrom {stack ts out : List Token} (h : postfixFrom stack ts = .ok out) :
    Balanced (openParens stack) ts := by
  induction ts generalizing stack out with
  | nil =>
    simp only [postfixFrom] at h
    split at h
    · cases h
    · rename_i none
      simpa [Balanced, openParens] using none
  | cons t rest ih =>
    obtain ⟨released, stack', out', run, -, cases⟩ := postfixFrom_cons_eq_ok h
    have balanced := ih run
    -- Only a parenthesis changes how many are open on the stack.
    rcases cases with ⟨operand, -, rfl⟩ | ⟨kind | kind, -, rfl⟩ | ⟨kind, below, rfl, rfl, inner⟩ |
      ⟨kind, closed⟩
    · rwa [balanced_other (Token.isParen_of_isOperand operand)]
    · rw [balanced_other (by simp [Token.isParen, kind])]
      simpa [openParens, kind] using balanced
    · rw [balanced_leftParen kind]
      simpa [openParens, kind] using balanced
    · rw [balanced_other (by simp [Token.isParen, kind])]
      have none : released.countP (·.kind == .leftParen) = 0 := by simpa using inner
      simpa [openParens, kind, none] using balanced
    · rw [balanced_rightParen kind, openParens_of_closeParen closed]
      exact ⟨Nat.succ_pos _, balanced⟩

theorem Token.isParen_eq_false {t : Token} :
    t.isParen = false ↔ t.kind ≠ .leftParen ∧ t.kind ≠ .rightParen := by simp [isParen]

theorem filter_isParen_eq_self {ts : List Token} (left : ∀ t ∈ ts, t.kind ≠ .leftParen)
    (right : ∀ t ∈ ts, t.kind ≠ .rightParen) : ts.filter (!·.isParen) = ts := by
  rw [List.filter_eq_self]
  intro t ht
  simpa using Token.isParen_eq_false.mpr ⟨left t ht, right t ht⟩

/-- The tokens of a reordered row are those that came in, without the parentheses. -/
theorem perm_of_postfixFrom {stack ts out : List Token} (h : postfixFrom stack ts = .ok out)
    (noRight : ∀ t ∈ stack, t.kind ≠ .rightParen) :
    out.Perm ((stack ++ ts).filter (!·.isParen)) := by
  induction ts generalizing stack out with
  | nil =>
    simp only [postfixFrom] at h
    split at h
    · cases h
    · rename_i noLeft
      obtain rfl := Except.ok.inj h
      rw [List.append_nil, filter_isParen_eq_self (by simpa using noLeft) noRight]
  | cons t rest ih =>
    obtain ⟨released, stack', out', run, rfl, cases⟩ := postfixFrom_cons_eq_ok h
    rcases cases with ⟨operand, rfl, rfl⟩ | ⟨kind, rfl, rfl⟩ | ⟨kind, below, rfl, rfl, inner⟩ |
      ⟨kind, closed⟩
    · -- An operand goes straight to the output.
      have kept := Token.isParen_of_isOperand operand
      refine ((ih run noRight).cons t).trans (List.Perm.symm ?_)
      exact (List.perm_middle.filter _).trans (by simp [kept])
    · -- A function or an opening parenthesis only moves to the stack.
      have noRight' : ∀ u ∈ t :: stack, u.kind ≠ .rightParen := by
        intro u hu
        rcases List.mem_cons.mp hu with rfl | hu
        · rcases kind with kind | kind <;> simp [kind]
        · exact noRight u hu
      exact (ih run noRight').trans (List.perm_middle.symm.filter _)
    · -- An operator moves to the stack in the place of what it releases.
      have noRight' : ∀ u ∈ t :: below, u.kind ≠ .rightParen := by
        intro u hu
        rcases List.mem_cons.mp hu with rfl | hu
        · simp [kind]
        · exact noRight u (List.mem_append_right released hu)
      have kept := filter_isParen_eq_self inner fun u hu =>
        noRight u (List.mem_append_left below hu)
      rw [List.append_assoc, List.filter_append released, kept]
      exact ((ih run noRight').trans (List.perm_middle.symm.filter _)).append_left released
    · -- A closing parenthesis and its partner leave together.
      obtain ⟨p, partner, perm, inner⟩ := closeParen_eq_ok closed
      have mem {u : Token} (hu : u ∈ released ++ stack') : u.kind ≠ .rightParen :=
        noRight u (perm.symm.subset (List.mem_cons_of_mem p hu))
      have kept := filter_isParen_eq_self inner fun u hu => mem (List.mem_append_left stack' hu)
      refine ((ih run fun u hu => mem (List.mem_append_right released hu)).append_left
        released).trans (List.Perm.symm ?_)
      refine ((perm.append_right (t :: rest)).filter _).trans (List.Perm.of_eq ?_)
      have dropped : p.isParen ∧ t.isParen := by simp [Token.isParen, partner, kind]
      simp only [List.cons_append, List.append_assoc, List.filter_append, kept, dropped,
        Bool.not_true, Bool.false_eq_true, not_false_eq_true, List.filter_cons_of_neg]

/-- A token in postfix order is one of the row, and no parenthesis. -/
theorem mem_of_mem_toPostfix {ts out : List Token} {t : Token} (h : toPostfix ts = .ok out)
    (ht : t ∈ out) : t ∈ ts ∧ t.isParen = false := by
  have kept : t ∈ ts.filter (!·.isParen) := (perm_of_postfixFrom h nofun).subset ht
  rwa [List.mem_filter, Bool.not_eq_true'] at kept

end EquationSolver
