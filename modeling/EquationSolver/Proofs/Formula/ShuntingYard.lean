import EquationSolver.Formula.Postfix
import EquationSolver.Proofs.Formula.Grammar

/-!
# Postfix order of a sentence

Bringing a sentence into postfix order gives the postorder of its syntax tree. A part of the latter
is put out while the tokens are read and the rest waits on the stack, so the statement for a
nonterminal is about both: above a stack that its operators do not release, its tokens put out a
first part of the postorder and leave the rest waiting, bound at least as tightly as the
nonterminal.

## Main definitions

* `Emits`: what reading some tokens puts out, and the stack it leaves
* `Blocks`, `Binds`: a stack whose top is not released, and a token that waits, by binding strength
* `Orders`, `OrdersCalled`, `Category.Reads`: what reading the tokens of a nonterminal comes to

## Main results

* `Derives.reads`: reading a nonterminal puts out its postorder, up to what still waits
* `toPostfix_of_derives`: the postfix order of a sentence is the postorder of its tree
-/

namespace EquationSolver

/-- Reading `w` above the stack `s` puts out `out` and leaves the stack `s'`, whatever follows. -/
def Emits (s w out s' : List Token) : Prop :=
  ∀ rest, postfixFrom s (w ++ rest) = (postfixFrom s' rest).map (out ++ ·)

theorem Emits.trans {s s' s'' u w out out' : List Token} (hu : Emits s u out s')
    (hw : Emits s' w out' s'') : Emits s (u ++ w) (out ++ out') s'' := by
  intro rest
  rw [List.append_assoc, hu, hw]
  cases postfixFrom s'' rest <;> simp [Except.map]

theorem Emits.operand {t : Token} (h : t.isOperand) (s : List Token) : Emits s [t] [t] s := by
  intro rest
  rcases Token.isOperand_iff.mp h with kind | kind <;> simp [postfixFrom, kind]

theorem Emits.push {t : Token} (h : t.kind = .function ∨ t.kind = .leftParen) (s : List Token) :
    Emits s [t] [] (t :: s) := by
  intro rest
  have same : postfixFrom s (t :: rest) = postfixFrom (t :: s) rest := by
    rcases h with kind | kind <;> simp [postfixFrom, kind]
  rw [List.singleton_append, same]
  cases postfixFrom (t :: s) rest <;> rfl

theorem Emits.function (f : Function) (s : List Token) :
    Emits s [.ofFunction f] [] (.ofFunction f :: s) := .push (.inl rfl) s

/-- An operator releases the top of the stack, as far as it yields, and waits in its place. -/
theorem Emits.release {t : Token} {op : Operator} (kind : t.kind = .operator)
    (known : Operator.ofText? t.text = some op) (s : List Token) :
    Emits s [t] (s.takeWhile (Token.yieldsTo op)) (t :: s.dropWhile (Token.yieldsTo op)) := by
  intro rest
  simp [postfixFrom, kind, known]

theorem Emits.operator {op : Operator} {pend s : List Token}
    (released : ∀ t ∈ pend, t.yieldsTo op) (kept : ∀ t ∈ s.head?, t.yieldsTo op = false) :
    Emits (pend ++ s) [.ofOperator op] pend (.ofOperator op :: s) := by
  -- Releasing ends at the first token that is kept, which is the top of `s`.
  have front : s.takeWhile (Token.yieldsTo op) = [] ∧ s.dropWhile (Token.yieldsTo op) = s := by
    cases s with
    | nil => exact ⟨rfl, rfl⟩
    | cons t s => simp [kept t rfl]
  have release := Emits.release (t := .ofOperator op) rfl op.ofText?_text (pend ++ s)
  rwa [List.takeWhile_append_of_pos released, List.dropWhile_append_of_pos released, front.1,
    front.2, List.append_nil] at release

/-- A closing parenthesis releases what it takes off the stack, but for its partner. -/
theorem Emits.close {t : Token} {stack released waiting : List Token} (kind : t.kind = .rightParen)
    (h : closeParen stack = .ok (released, waiting)) : Emits stack [t] released waiting := by
  intro rest
  simp [postfixFrom, kind, h]

theorem Emits.rightParen {stack released waiting : List Token}
    (h : closeParen stack = .ok (released, waiting)) :
    Emits stack [.rightParen] released waiting := .close rfl h

/-! ## Binding strengths -/

/-- The token may wait on the stack, and binds with at least the given strength. -/
def Binds (n : Nat) (t : Token) : Prop := t.kind ≠ .leftParen ∧ n ≤ t.precedence

/-- No operator of at least the given strength releases the top of the stack. -/
def Blocks (n : Nat) (s : List Token) : Prop :=
  ∀ t ∈ s.head?, ∀ op : Operator, n ≤ op.precedence → t.yieldsTo op = false

theorem Binds.mono {m n : Nat} {t : Token} (h : m ≤ n) (ht : Binds n t) : Binds m t :=
  ⟨ht.1, Nat.le_trans h ht.2⟩

theorem Blocks.mono {m n : Nat} {s : List Token} (h : m ≤ n) (hs : Blocks m s) : Blocks n s :=
  fun t ht op hop => hs t ht op (Nat.le_trans h hop)

theorem Binds.operator (op : Operator) : Binds op.precedence (.ofOperator op) :=
  ⟨nofun, Nat.le_of_eq (Token.precedence_ofOperator op).symm⟩

theorem Binds.sign {f : Function} (h : f ∈ Function.signs) : Binds 3 (.ofFunction f) :=
  ⟨nofun, Nat.le_of_eq (Token.precedence_of_mem_signs h).symm⟩

theorem Binds.named {f : Function} (h : f ∈ Function.named) : Binds 4 (.ofFunction f) :=
  ⟨nofun, Nat.le_of_eq (Token.precedence_of_mem_named h).symm⟩

/-- A waiting token is released by weaker operators, and by those of its own strength that group
from the left. -/
theorem Binds.yieldsTo {n : Nat} {t : Token} (h : Binds n t) {op : Operator}
    (weaker : op.precedence < n ∨ op.precedence = n ∧ op.isRightAssoc = false) :
    t.yieldsTo op := by
  obtain ⟨kind, bound⟩ := h
  -- A token that binds more tightly than it has to is released all the more.
  have released : op.precedence < t.precedence ∨
      t.precedence = op.precedence ∧ op.isRightAssoc = false := by
    rcases weaker with weaker | ⟨same, left⟩
    · exact .inl (Nat.lt_of_lt_of_le weaker bound)
    · rcases Nat.eq_or_lt_of_le (same ▸ bound) with h | h
      · exact .inr ⟨h.symm, left⟩
      · exact .inl h
  simpa [Token.yieldsTo, kind] using released

theorem blocks_nil (n : Nat) : Blocks n [] := nofun

theorem blocks_leftParen (n : Nat) (s : List Token) : Blocks n (.leftParen :: s) := by
  simp [Blocks, Token.yieldsTo, Token.leftParen]

/-- A token is not released by operators that bind more tightly. -/
theorem blocks_succ {n : Nat} {t : Token} (s : List Token) (h : t.precedence ≤ n) :
    Blocks (n + 1) (t :: s) := by
  intro u hu op hop
  obtain rfl : t = u := Option.some.inj hu
  have weaker : ¬ op.precedence < t.precedence ∧ t.precedence ≠ op.precedence := by omega
  simp [Token.yieldsTo, weaker]

/-- A power groups from the right: it does not release what binds as tightly as itself. -/
theorem blocks_pow {t : Token} (s : List Token) (h : t.precedence ≤ 3) : Blocks 3 (t :: s) := by
  intro u hu op hop
  obtain rfl : t = u := Option.some.inj hu
  obtain rfl : op = .pow := by
    cases op <;> simp [Operator.precedence] at hop ⊢
  simp [Token.yieldsTo, Operator.precedence, Operator.isRightAssoc, Nat.not_lt.mpr h]

/-- No operator binds more tightly than a power. -/
theorem blocks_four (s : List Token) : Blocks 4 s := by
  intro t _ op hop
  cases op <;> simp [Operator.precedence] at hop

theorem precedence_of_isCall {t : Token} (h : t.isCall) : t.precedence = 4 := by
  simp only [Token.isCall, Bool.and_eq_true, beq_iff_eq, Bool.not_eq_true'] at h
  simp [Token.precedence, h, Token.functionPrecedence]

theorem Binds.isCall {t : Token} (h : t.isCall) : Binds 4 t := by
  refine ⟨?_, Nat.le_of_eq (precedence_of_isCall h).symm⟩
  intro kind
  simp [Token.isCall, kind] at h

/-- The top of a stack that no power releases is no function that has to be called. -/
theorem Blocks.isCall_eq_false {t : Token} {s : List Token} (h : Blocks 3 (t :: s)) :
    t.isCall = false := by
  rw [Bool.eq_false_iff]
  intro call
  have kept := h t rfl .pow (Nat.le_refl 3)
  rw [(Binds.isCall call).yieldsTo (.inl (by decide))] at kept
  cases kept

theorem isCall_ofFunction {f : Function} (h : f ∈ Function.named) :
    (Token.ofFunction f).isCall := by
  revert f
  decide

/-! ## Closing a parenthesis -/

/-- The tokens that wait inside a parenthesis are those above its partner. -/
theorem span_leftParen {pend : List Token} (waiting : ∀ t ∈ pend, Binds 1 t) (s : List Token) :
    (pend ++ .leftParen :: s).takeWhile (·.kind != .leftParen) = pend ∧
      (pend ++ .leftParen :: s).dropWhile (·.kind != .leftParen) = .leftParen :: s := by
  have inside : ∀ t ∈ pend, (t.kind != .leftParen) = true := by
    simpa using fun t ht => (waiting t ht).1
  simp [List.takeWhile_append_of_pos inside, List.dropWhile_append_of_pos inside, Token.leftParen]

/-- A closing parenthesis releases what waits inside, and the function in front. -/
theorem closeParen_call {pend s : List Token} {f : Token} (waiting : ∀ t ∈ pend, Binds 1 t)
    (call : f.isCall) : closeParen (pend ++ .leftParen :: f :: s) = .ok (pend ++ [f], s) := by
  obtain ⟨inner, outer⟩ := span_leftParen waiting (f :: s)
  simp [closeParen, inner, outer, call]

/-- A closing parenthesis releases what waits inside and leaves a blocked stack as it is. -/
theorem closeParen_blocked {pend s : List Token} (waiting : ∀ t ∈ pend, Binds 1 t)
    (blocked : Blocks 3 s) : closeParen (pend ++ .leftParen :: s) = .ok (pend, s) := by
  obtain ⟨inner, outer⟩ := span_leftParen waiting s
  cases s with
  | nil => simp [closeParen, inner, outer]
  | cons f below => simp [closeParen, inner, outer, blocked.isCall_eq_false]

/-! ## Nonterminals -/

/-- Reading `w` above a stack whose top is not released by operators of strength `m` puts out the
postorder of `t` up to tokens that bind with strength `n`, which then wait. -/
def Orders (m n : Nat) (w : List Token) (t : Tree) : Prop :=
  ∀ s, Blocks m s → ∃ out pend, out ++ pend = t.postorder ∧ (∀ u ∈ pend, Binds n u) ∧
    Emits s w out (pend ++ s)

/-- Reading `w` above functions that have to be called puts out the postorder of `t` and these
functions, up to some of them, which then wait. -/
def OrdersCalled (w : List Token) (t : Tree) : Prop :=
  ∀ calls s, (∀ f ∈ calls, f.isCall) → Blocks 3 s →
    ∃ out pend, out ++ pend = t.postorder ++ calls ∧ (∀ u ∈ pend, u.isCall) ∧
      Emits (calls ++ s) w out (pend ++ s)

variable {m n m' n' : Nat} {u w : List Token} {s t : Tree}

theorem Orders.mono (h : Orders m n w t) (hm : m' ≤ m) (hn : n' ≤ n) : Orders m' n' w t := by
  intro stack blocked
  obtain ⟨out, pend, post, binds, emits⟩ := h stack (blocked.mono hm)
  exact ⟨out, pend, post, fun u hu => (binds u hu).mono hn, emits⟩

/-- An operator between two operands: it releases what waits of the left one, and waits itself
below what waits of the right one. -/
theorem Orders.between {op : Operator} {stack out pend out' pend' : List Token}
    (post : out ++ pend = s.postorder) (emits : Emits stack u out (pend ++ stack))
    (released : ∀ v ∈ pend, v.yieldsTo op) (kept : ∀ v ∈ stack.head?, v.yieldsTo op = false)
    (post' : out' ++ pend' = t.postorder) (binds' : ∀ v ∈ pend', Binds op.precedence v)
    (emits' : Emits (.ofOperator op :: stack) w out' (pend' ++ .ofOperator op :: stack)) :
    ∃ out pend, out ++ pend = (Tree.binary op s t).postorder ∧
      (∀ v ∈ pend, Binds op.precedence v) ∧
      Emits stack (u ++ .ofOperator op :: w) out (pend ++ stack) := by
  refine ⟨out ++ (pend ++ out'), pend' ++ [.ofOperator op], ?_, ?_, ?_⟩
  · simp [← post, ← post']
  · rw [List.forall_mem_append, List.forall_mem_singleton]
    exact ⟨binds', Binds.operator op⟩
  · have read := emits.trans ((Emits.operator released kept).trans emits')
    simpa using read

/-- An operator that groups from the left. -/
theorem Orders.binary {op : Operator} (strength : op.precedence = n)
    (left : op.isRightAssoc = false) (hu : Orders n n u s) (hw : Orders (n + 1) (n + 1) w t) :
    Orders n n (u ++ .ofOperator op :: w) (.binary op s t) := by
  intro stack blocked
  subst strength
  obtain ⟨out, pend, post, binds, emits⟩ := hu stack blocked
  have weak : (Token.ofOperator op).precedence ≤ op.precedence := by simp
  obtain ⟨out', pend', post', binds', emits'⟩ := hw _ (blocks_succ stack weak)
  apply Orders.between post emits _ _ post' _ emits'
  · intro v hv
    exact (binds v hv).yieldsTo (.inr ⟨rfl, left⟩)
  · intro v hv
    exact blocked v hv op (Nat.le_refl _)
  · intro v hv
    exact (binds' v hv).mono (Nat.le_succ _)

/-- The power, which groups from the right. -/
theorem OrdersCalled.power (hu : OrdersCalled u s) (hw : Orders 3 3 w t) :
    Orders 3 3 (u ++ .ofOperator .pow :: w) (.binary .pow s t) := by
  intro stack blocked
  -- Only functions wait behind the base, and they bind more tightly than the power.
  obtain ⟨out, pend, post, calls, emits⟩ := hu [] stack nofun blocked
  obtain ⟨out', pend', post', binds', emits'⟩ :=
    hw (.ofOperator .pow :: stack) (blocks_pow stack (by decide))
  rw [List.append_nil] at post
  have waiting : ∀ v ∈ pend', Binds Operator.pow.precedence v := binds'
  apply Orders.between post emits _ _ post' waiting emits'
  · intro v hv
    exact (Binds.isCall (calls v hv)).yieldsTo (.inl (by decide))
  · intro v hv
    exact blocked v hv .pow (Nat.le_refl 3)

/-- A sign or a function in front of tokens that are read above it. -/
theorem Orders.function (f : Function) (binds : Binds 3 (.ofFunction f))
    (blocked : ∀ s, Blocks m (.ofFunction f :: s)) (h : Orders m 3 w t) :
    Orders 4 3 (.ofFunction f :: w) (.call f t) := by
  intro stack _
  obtain ⟨out, pend, post, binds', emits⟩ := h _ (blocked stack)
  refine ⟨out, pend ++ [.ofFunction f], by simp [← post], ?_, ?_⟩
  · rw [List.forall_mem_append, List.forall_mem_singleton]
    exact ⟨binds', binds⟩
  · simpa using (Emits.function f stack).trans emits

theorem Orders.sign {f : Function} (known : f ∈ Function.signs) (h : Orders 3 3 w t) :
    Orders 4 3 (.ofFunction f :: w) (.call f t) := by
  apply h.function f (.sign known)
  intro s
  exact blocks_pow s (Nat.le_of_eq (Token.precedence_of_mem_signs known))

theorem Orders.called {f : Function} (known : f ∈ Function.named) (h : Orders 4 3 w t) :
    Orders 4 3 (.ofFunction f :: w) (.call f t) :=
  h.function f ((Binds.named known).mono (by decide)) fun _ => blocks_four _

theorem OrdersCalled.orders (h : OrdersCalled w t) : Orders 3 3 w t := by
  intro stack blocked
  obtain ⟨out, pend, post, calls, emits⟩ := h [] stack nofun blocked
  exact ⟨out, pend, by simpa using post,
    fun v hv => (Binds.isCall (calls v hv)).mono (by decide), emits⟩

theorem OrdersCalled.operand {t : Token} (known : t.isOperand) :
    OrdersCalled [t] (.operand t known) := by
  intro calls s isCall _
  exact ⟨[t], calls, rfl, isCall, .operand known _⟩

theorem OrdersCalled.called {f : Function} (known : f ∈ Function.named) (h : OrdersCalled w t) :
    OrdersCalled (.ofFunction f :: w) (.call f t) := by
  intro calls s isCall blocked
  have isCall' : ∀ g ∈ Token.ofFunction f :: calls, g.isCall := by
    intro g hg
    rcases List.mem_cons.mp hg with rfl | hg
    · exact isCall_ofFunction known
    · exact isCall g hg
  obtain ⟨out, pend, post, waiting, emits⟩ := h _ s isCall' blocked
  refine ⟨out, pend, by simp [post], waiting, ?_⟩
  simpa using (Emits.function f (calls ++ s)).trans emits

theorem OrdersCalled.paren (h : Orders 1 1 w t) :
    OrdersCalled (.leftParen :: w ++ [.rightParen]) t := by
  intro calls s isCall blocked
  obtain ⟨out, pend, post, binds, emits⟩ := h _ (blocks_leftParen 1 (calls ++ s))
  have opened := (Emits.push (.inr rfl) (calls ++ s)).trans emits
  -- The function in front of the parenthesis is released by it, those before that still wait.
  cases calls with
  | nil =>
    have closed := opened.trans (Emits.rightParen (closeParen_blocked binds blocked))
    exact ⟨out ++ pend, [], by simp [post], nofun, by simpa using closed⟩
  | cons f calls =>
    have call := isCall f List.mem_cons_self
    have closed := opened.trans (Emits.rightParen (closeParen_call binds call))
    refine ⟨out ++ pend ++ [f], calls, by simp [post],
      fun g hg => isCall g (List.mem_cons_of_mem f hg), by simpa using closed⟩

/-- What reading the tokens of a nonterminal comes to. -/
def Category.Reads : Category → List Token → Tree → Prop
  | expr => Orders 1 1
  | term => Orders 2 2
  | unary | power => Orders 3 3
  | signedCall => Orders 4 3
  | prim => OrdersCalled

/-- **Reading a nonterminal** puts out the postorder of its tree, up to what still waits. -/
theorem Derives.reads {c : Category} (h : Derives c w t) : c.Reads w t := by
  induction h with
  | ofTerm _ ih => exact Orders.mono ih (by decide) (by decide)
  | sum op known _ _ ihu ihw =>
    rcases known with rfl | rfl <;> exact Orders.binary rfl rfl ihu ihw
  | ofUnary _ ih => exact Orders.mono ih (by decide) (by decide)
  | product op known _ _ ihu ihw =>
    rcases known with rfl | rfl <;> exact Orders.binary rfl rfl ihu ihw
  | sign f known _ ih => exact (Orders.sign known ih).mono (by decide) (by decide)
  | ofPower _ ih => exact ih
  | ofPrim _ ih => exact OrdersCalled.orders ih
  | power _ _ ihu ihw => exact OrdersCalled.power ihu ihw
  | ofSignedCall _ ih => exact Orders.mono ih (by decide) (by decide)
  | operand t known => exact .operand known
  | paren _ ih => exact .paren ih
  | call f known _ ih => exact .called known ih
  | callSign f g known sign _ ih => exact (Orders.sign sign ih).called known
  | callNested f known _ ih => exact Orders.called known ih

/-- The postfix order of a sentence is the postorder of its tree. -/
theorem toPostfix_of_derives (h : Derives .expr w t) : toPostfix w = .ok t.postorder := by
  obtain ⟨out, pend, post, binds, emits⟩ := h.reads [] (blocks_nil 1)
  have read := emits []
  -- No parenthesis is left open, so the end of the input releases all that waits.
  have closed : pend.any (·.kind == .leftParen) = false := by
    simpa using fun v hv => (binds v hv).1
  simp only [List.append_nil] at read
  simp [toPostfix, read, postfixFrom, closed, Except.map, post]

/-- A sign is weaker than a power behind it, and a function is stronger. -/
example :
    toPostfix [.ofFunction .neg, .ofFunction .sin, .ofVariable, .ofOperator .pow, .ofVariable] =
      .ok [.ofVariable, .ofFunction .sin, .ofVariable, .ofOperator .pow, .ofFunction .neg] := rfl

end EquationSolver
