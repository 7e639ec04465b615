import EquationSolver.Formula.Program

/-!
# Expression trees

An expression tree has operands at its leaves and functions and operators at its nodes. Written in
postorder it is a program: each node comes after its children, the left one first. The tree has a
value at every point, found from the leaves up, and a program has at most one tree.

## Main definitions

* `Token.operator?`, `Token.function?`: the operator and the function that a token stands for
* `Tree`, `Tree.postorder`: a tree labelled with tokens, and the tokens in postorder
* `Tree.value`, `Tree.DividesByZero`: its value at a point, and whether a division in it has a right
  value of zero there

## Main results

* `Tree.append_postorder_inj`: the tree at the end of a row of tokens is determined by them
* `checkArityFrom_postorder`, `runFrom_postorder`: what a tree does to the number of values, and to
  the values on the stack
-/

namespace EquationSolver

namespace Token

/-- The operator that an operator token stands for. -/
def operator? (t : Token) : Option Operator :=
  if t.kind = .operator then Operator.ofText? t.text else none

/-- The function that a function token stands for. -/
def function? (t : Token) : Option Function :=
  if t.kind = .function then Function.ofText? t.text else none

@[simp] theorem operator?_ofOperator (op : Operator) : (ofOperator op).operator? = some op :=
  Operator.ofText?_text op

@[simp] theorem function?_ofFunction (f : Function) : (ofFunction f).function? = some f :=
  Function.ofText?_text f

theorem operator?_eq_some {t : Token} {op : Operator} :
    t.operator? = some op ↔ t.kind = .operator ∧ Operator.ofText? t.text = some op := by
  simp [operator?]

theorem function?_eq_some {t : Token} {f : Function} :
    t.function? = some f ↔ t.kind = .function ∧ Function.ofText? t.text = some f := by
  simp [function?]

theorem isOperand_iff {t : Token} : t.isOperand ↔ t.kind = .number ∨ t.kind = .variable := by
  simp [isOperand]

theorem not_isOperand_of_operator? {t : Token} {op : Operator} (h : t.operator? = some op) :
    ¬ t.isOperand := by
  simp [isOperand_iff, (operator?_eq_some.mp h).1]

theorem not_isOperand_of_function? {t : Token} {f : Function} (h : t.function? = some f) :
    ¬ t.isOperand := by
  simp [isOperand_iff, (function?_eq_some.mp h).1]

theorem operator?_ne_of_function? {t : Token} {f : Function} (h : t.function? = some f)
    (op : Operator) : t.operator? ≠ some op := by
  simp [operator?, (function?_eq_some.mp h).1]

@[simp] theorem precedence_ofOperator (op : Operator) :
    precedence (ofOperator op) = op.precedence := by cases op <;> decide

theorem precedence_of_mem_signs {f : Function} (h : f ∈ Function.signs) :
    (ofFunction f).precedence = 3 := by
  simp only [Function.signs, List.mem_cons, List.not_mem_nil, or_false] at h
  rcases h with rfl | rfl <;> decide

theorem precedence_of_mem_named {f : Function} (h : f ∈ Function.named) :
    (ofFunction f).precedence = 4 := by
  revert f
  decide

/-- A token with a meaning in a program: an operand, or an operator or a function that is known. -/
def IsInstruction (t : Token) : Prop :=
  t.isOperand ∨ (∃ op, t.operator? = some op) ∨ ∃ f, t.function? = some f

end Token

/-- An expression tree. Every node carries the token it is written by. -/
inductive Tree where
  /-- A number or the variable. -/
  | operand (t : Token) (known : t.isOperand)
  /-- A function with its argument. -/
  | apply (t : Token) (f : Function) (known : t.function? = some f) (argument : Tree)
  /-- An operator between two trees. -/
  | combine (t : Token) (op : Operator) (known : t.operator? = some op) (left right : Tree)

namespace Tree

/-- A function of a tree, written by the token of the function. -/
def call (f : Function) (argument : Tree) : Tree :=
  .apply (.ofFunction f) f (Token.function?_ofFunction f) argument

/-- An operator between two trees, written by the token of the operator. -/
def binary (op : Operator) (left right : Tree) : Tree :=
  .combine (.ofOperator op) op (Token.operator?_ofOperator op) left right

/-- The tokens of a tree, each node after its children. -/
def postorder : Tree → List Token
  | operand t _ => [t]
  | apply t _ _ a => a.postorder ++ [t]
  | combine t _ _ l r => l.postorder ++ r.postorder ++ [t]

@[simp] theorem postorder_operand (t : Token) (h : t.isOperand) :
    (operand t h).postorder = [t] := rfl

@[simp] theorem postorder_call (f : Function) (a : Tree) :
    (call f a).postorder = a.postorder ++ [.ofFunction f] := rfl

@[simp] theorem postorder_binary (op : Operator) (l r : Tree) :
    (binary op l r).postorder = l.postorder ++ r.postorder ++ [.ofOperator op] := rfl

/-- The value of a tree with the variable at `x`, from the leaves up. -/
def value (x : Float) : Tree → Float
  | operand t _ => if t.kind = .variable then x else t.value
  | apply _ f _ a => f.apply (a.value x)
  | combine _ op _ l r => op.apply (l.value x) (r.value x)

/-- Some division in the tree has a right value equal to zero, of either sign. -/
def DividesByZero (x : Float) : Tree → Prop
  | operand _ _ => False
  | apply _ _ _ a => a.DividesByZero x
  | combine _ op _ l r =>
    l.DividesByZero x ∨ r.DividesByZero x ∨ (op = .div ∧ (r.value x == 0.0) = true)

/-! ## Unique readability -/

/-- The token of the topmost node. -/
def root : Tree → Token
  | operand t _ | apply t _ _ _ | combine t _ _ _ _ => t

/-- The tokens below the topmost node. -/
def body : Tree → List Token
  | operand _ _ => []
  | apply _ _ _ a => a.postorder
  | combine _ _ _ l r => l.postorder ++ r.postorder

theorem postorder_eq_body (t : Tree) : t.postorder = t.body ++ [t.root] := by cases t <;> rfl

/-- Two rows of tokens that end in trees have the same last token, and agree before it. -/
theorem root_eq_of_append_postorder {t u : Tree} {r r' : List Token}
    (h : r ++ t.postorder = r' ++ u.postorder) : t.root = u.root ∧ r ++ t.body = r' ++ u.body := by
  rw [postorder_eq_body, postorder_eq_body u, ← List.append_assoc, ← List.append_assoc] at h
  obtain ⟨front, last⟩ := List.append_inj' h rfl
  exact ⟨List.singleton_inj.mp last, front⟩

/-- The tree at the end of a row of tokens is determined by them, and so is what stands in front of
it. -/
theorem append_postorder_inj {t u : Tree} {r r' : List Token}
    (h : r ++ t.postorder = r' ++ u.postorder) : r = r' ∧ t = u := by
  -- The last token tells what node is topmost in both trees, so only equal kinds of node remain.
  induction t generalizing u r r' with
  | operand t known =>
    obtain ⟨root, front⟩ := root_eq_of_append_postorder h
    cases u with
    | operand t' known' =>
      obtain rfl : t = t' := root
      exact ⟨by simpa [body] using front, rfl⟩
    | apply t' f known' a =>
      obtain rfl : t = t' := root
      exact absurd known (Token.not_isOperand_of_function? known')
    | combine t' op known' l k =>
      obtain rfl : t = t' := root
      exact absurd known (Token.not_isOperand_of_operator? known')
  | apply t f known a ih =>
    obtain ⟨root, front⟩ := root_eq_of_append_postorder h
    cases u with
    | operand t' known' =>
      obtain rfl : t = t' := root
      exact absurd known' (Token.not_isOperand_of_function? known)
    | apply t' f' known' a' =>
      obtain rfl : t = t' := root
      obtain rfl : f = f' := Option.some.inj (known.symm.trans known')
      obtain ⟨rfl, rfl⟩ := ih front
      exact ⟨rfl, rfl⟩
    | combine t' op known' l k =>
      obtain rfl : t = t' := root
      exact absurd known' (Token.operator?_ne_of_function? known op)
  | combine t op known l k ihl ihk =>
    obtain ⟨root, front⟩ := root_eq_of_append_postorder h
    cases u with
    | operand t' known' =>
      obtain rfl : t = t' := root
      exact absurd known' (Token.not_isOperand_of_operator? known)
    | apply t' f known' a =>
      obtain rfl : t = t' := root
      exact absurd known (Token.operator?_ne_of_function? known' op)
    | combine t' op' known' l' k' =>
      obtain rfl : t = t' := root
      obtain rfl : op = op' := Option.some.inj (known.symm.trans known')
      simp only [body, ← List.append_assoc] at front
      -- The right subtree ends the row; what is left of it ends in the left one.
      obtain ⟨left, rfl⟩ := ihk front
      obtain ⟨rfl, rfl⟩ := ihl left
      exact ⟨rfl, rfl⟩

/-- A program is the postorder of at most one tree. -/
theorem postorder_inj {t u : Tree} (h : t.postorder = u.postorder) : t = u := by
  have whole : [] ++ t.postorder = [] ++ u.postorder := by rw [h]
  exact (append_postorder_inj whole).2

end Tree

/-! ## Trees on the two stacks -/

theorem checkArityFrom_operand {t : Token} (h : t.isOperand) (depth : Nat) (rest : List Token) :
    checkArityFrom depth (t :: rest) = checkArityFrom (depth + 1) rest := by
  simp [checkArityFrom, h]

theorem checkArityFrom_operator {t : Token} (h : t.kind = .operator) (depth : Nat)
    (rest : List Token) :
    checkArityFrom (depth + 2) (t :: rest) = checkArityFrom (depth + 1) rest := by
  have deep : ¬ depth + 2 < 2 := by omega
  simp [checkArityFrom, Token.isOperand, h, deep]

theorem checkArityFrom_function {t : Token} (h : t.kind = .function) (depth : Nat)
    (rest : List Token) :
    checkArityFrom (depth + 1) (t :: rest) = checkArityFrom (depth + 1) rest := by
  simp [checkArityFrom, Token.isOperand, h]

/-- The check goes over a tree as over one operand. -/
theorem checkArityFrom_postorder (t : Tree) (depth : Nat) (rest : List Token) :
    checkArityFrom depth (t.postorder ++ rest) = checkArityFrom (depth + 1) rest := by
  induction t generalizing depth rest with
  | operand t known => exact checkArityFrom_operand known depth rest
  | apply t f known a ih =>
    have kind := (Token.function?_eq_some.mp known).1
    rw [Tree.postorder, List.append_assoc, ih]
    exact checkArityFrom_function kind depth rest
  | combine t op known l r ihl ihr =>
    have kind := (Token.operator?_eq_some.mp known).1
    rw [Tree.postorder, List.append_assoc, List.append_assoc, ihl, ihr]
    exact checkArityFrom_operator kind depth rest

theorem checkArity_postorder (t : Tree) : checkArity t.postorder = .ok () := by
  have h := checkArityFrom_postorder t 0 []
  simpa [checkArity, checkArityFrom] using h

/-- An operator fails only as a division by zero. -/
theorem applyOperator_of_ofText? {s : String} {op : Operator} (h : Operator.ofText? s = some op)
    (left right : Float) :
    applyOperator s left right =
      if op = .div ∧ (right == 0.0) = true then .error .divisionByZero
      else .ok (op.apply left right) := by
  have text : op.text = s := by simpa using List.find?_some h
  -- The texts of the operators are different.
  have slash : s = "/" ↔ op = .div := by
    subst text
    cases op <;> decide
  simp only [applyOperator, slash, h]

/-- A tree without a division by zero leaves its value on the stack. -/
theorem runFrom_postorder (x : Float) {t : Tree} (h : ¬ t.DividesByZero x) (stack : List Float)
    (rest : List Token) :
    runFrom x stack (t.postorder ++ rest) = runFrom x (t.value x :: stack) rest := by
  induction t generalizing stack rest with
  | operand t known =>
    rcases Token.isOperand_iff.mp known with kind | kind <;>
      simp [Tree.postorder, Tree.value, runFrom, stepProgram, kind]
  | apply t f known a ih =>
    obtain ⟨kind, text⟩ := Token.function?_eq_some.mp known
    simp only [Tree.postorder, List.append_assoc, ih h]
    simp [Tree.value, runFrom, stepProgram, kind, applyFunction, text, Except.map]
  | combine t op known l r ihl ihr =>
    obtain ⟨kind, text⟩ := Token.operator?_eq_some.mp known
    simp only [Tree.DividesByZero, not_or] at h
    obtain ⟨hl, hr, nonzero⟩ := h
    -- The operands are there, the right one on top.
    simp only [Tree.postorder, List.append_assoc, ihl hl, ihr hr]
    simp [Tree.value, runFrom, stepProgram, kind, applyOperator_of_ofText? text, nonzero,
      Except.map]

/-- A tree with a division by zero stops the run there. -/
theorem runFrom_postorder_of_dividesByZero (x : Float) {t : Tree} (h : t.DividesByZero x)
    (stack : List Float) (rest : List Token) :
    runFrom x stack (t.postorder ++ rest) = .error .divisionByZero := by
  induction t generalizing stack rest with
  | operand t known => exact h.elim
  | apply t f known a ih =>
    rw [Tree.postorder, List.append_assoc, ih h]
  | combine t op known l r ihl ihr =>
    obtain ⟨kind, text⟩ := Token.operator?_eq_some.mp known
    simp only [Tree.postorder, List.append_assoc]
    -- The run stops at the first of the divisions: in the left tree, in the right one, or here.
    by_cases hl : l.DividesByZero x
    · exact ihl hl _ _
    rw [runFrom_postorder x hl]
    by_cases hr : r.DividesByZero x
    · exact ihr hr _ _
    rw [runFrom_postorder x hr]
    have here : op = .div ∧ (r.value x == 0.0) = true := (h.resolve_left hl).resolve_left hr
    simp [runFrom, stepProgram, kind, applyOperator_of_ofText? text, here, Except.map]

theorem runProgram_postorder {x : Float} {t : Tree} (h : ¬ t.DividesByZero x) :
    runProgram t.postorder x = .ok (t.value x) := by
  have run := runFrom_postorder x h [] []
  rw [List.append_nil] at run
  simp only [runProgram, run, runFrom]

theorem runProgram_postorder_of_dividesByZero {x : Float} {t : Tree} (h : t.DividesByZero x) :
    runProgram t.postorder x = .error .divisionByZero := by
  have run := runFrom_postorder_of_dividesByZero x h [] []
  rw [List.append_nil] at run
  simp only [runProgram, run]

end EquationSolver
