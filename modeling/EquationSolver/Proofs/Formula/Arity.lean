import EquationSolver.Proofs.Formula.Tree

/-!
# Arity and evaluation

The check of a program counts values, the run of a program computes them. Both keep a stack, and
they agree on every program: the check passes exactly the postorders of trees, on these the run
finds the value of the tree unless a division by zero stops it, and on every other program the run
fails at every point.

## Main results

* `exists_tree_of_checkArityFrom`: a program that passes the check above some trees is the rest of a
  tree
* `checkArityFrom_of_runFrom`: a program that leaves one value passes the check
* `checkArity_runProgram_agree`: the check and the run agree
-/

namespace EquationSolver

/-- The tokens of the trees on a stack, the lowest tree first. -/
def stackTokens (stack : List Tree) : List Token := stack.reverse.flatMap Tree.postorder

@[simp] theorem stackTokens_cons (t : Tree) (stack : List Tree) :
    stackTokens (t :: stack) = stackTokens stack ++ t.postorder := by
  simp [stackTokens]

/-- A program that passes the check when trees stand for the values on the stack completes these to
a single tree. -/
theorem exists_tree_of_checkArityFrom {program : List Token}
    (known : ∀ t ∈ program, t.IsInstruction) (stack : List Tree)
    (h : checkArityFrom stack.length program = .ok ()) :
    ∃ t : Tree, t.postorder = stackTokens stack ++ program := by
  induction program generalizing stack with
  | nil =>
    rcases stack with _ | ⟨t, _ | ⟨u, below⟩⟩
    · cases h
    · exact ⟨t, by simp [stackTokens]⟩
    · simp [checkArityFrom] at h
  | cons t rest ih =>
    have later := ih fun u hu => known u (List.mem_cons_of_mem t hu)
    rcases known t List.mem_cons_self with operand | ⟨op, operator⟩ | ⟨f, function⟩
    · rw [checkArityFrom_operand operand] at h
      obtain ⟨whole, hw⟩ := later (.operand t operand :: stack) h
      exact ⟨whole, by simp [hw, Tree.postorder]⟩
    · have kind := (Token.operator?_eq_some.mp operator).1
      -- An operator takes the two trees on top, and is refused where there are fewer.
      rcases stack with _ | ⟨r, _ | ⟨l, below⟩⟩
      · simp [checkArityFrom, Token.isOperand, kind] at h
      · simp [checkArityFrom, Token.isOperand, kind] at h
      · rw [List.length_cons, List.length_cons, checkArityFrom_operator kind] at h
        obtain ⟨whole, hw⟩ := later (.combine t op operator l r :: below) h
        exact ⟨whole, by simp [hw, Tree.postorder]⟩
    · have kind := (Token.function?_eq_some.mp function).1
      rcases stack with _ | ⟨a, below⟩
      · simp [checkArityFrom, Token.isOperand, kind] at h
      · rw [List.length_cons, checkArityFrom_function kind] at h
        obtain ⟨whole, hw⟩ := later (.apply t f function a :: below) h
        exact ⟨whole, by simp [hw, Tree.postorder]⟩

/-- What one token does to the stack of values: it finds its operands there and leaves one value. -/
theorem stepProgram_eq_ok {x : Float} {t : Token} {stack stack' : List Float}
    (h : stepProgram x t stack = .ok stack') :
    (t.isOperand ∧ ∃ v, stack' = v :: stack) ∨
      (t.kind = .operator ∧ ∃ r l below v, stack = r :: l :: below ∧ stack' = v :: below) ∨
      (t.kind = .function ∧ ∃ a below v, stack = a :: below ∧ stack' = v :: below) := by
  unfold stepProgram at h
  split at h
  · rename_i kind
    exact .inl ⟨by simp [Token.isOperand, kind], t.value, (Except.ok.inj h).symm⟩
  · rename_i kind
    exact .inl ⟨by simp [Token.isOperand, kind], x, (Except.ok.inj h).symm⟩
  · rename_i kind
    split at h
    · rename_i r l below
      rcases hv : applyOperator t.text l r with e | v
      · simp [hv, Except.map] at h
      · rw [hv] at h
        exact .inr (.inl ⟨kind, r, l, below, v, rfl, (Except.ok.inj h).symm⟩)
    · cases h
  · rename_i kind
    split at h
    · rename_i a below
      rcases hv : applyFunction t.text a with e | v
      · simp [hv, Except.map] at h
      · rw [hv] at h
        exact .inr (.inr ⟨kind, a, below, v, rfl, (Except.ok.inj h).symm⟩)
    · cases h
  · cases h
  · cases h

/-- The check of a program that leaves one value passes. -/
theorem checkArityFrom_of_runFrom {x : Float} {program : List Token} {stack : List Float}
    {value : Float} (h : runFrom x stack program = .ok [value]) :
    checkArityFrom stack.length program = .ok () := by
  induction program generalizing stack with
  | nil =>
    obtain rfl : stack = [value] := Except.ok.inj h
    rfl
  | cons t rest ih =>
    rw [runFrom] at h
    split at h
    · cases h
    · rename_i stack' step
      have later := ih h
      rcases stepProgram_eq_ok step with ⟨operand, v, rfl⟩ | ⟨kind, r, l, below, v, rfl, rfl⟩ |
        ⟨kind, a, below, v, rfl, rfl⟩
      · rw [checkArityFrom_operand operand]
        exact later
      · exact (checkArityFrom_operator kind _ rest).trans later
      · exact (checkArityFrom_function kind _ rest).trans later

/-- A program that has a value somewhere passes the check. -/
theorem checkArity_of_runProgram {x : Float} {program : List Token} {value : Float}
    (h : runProgram program x = .ok value) : checkArity program = .ok () := by
  unfold runProgram at h
  split at h
  · cases h
  · rename_i run
    exact checkArityFrom_of_runFrom run
  · cases h

/-- **The check and the run agree.** A program passes the check exactly if it is the postorder of a
tree, which is then unique. The run of such a program finds the value of the tree, unless some
division in the tree has a right value of zero, and then that is what it reports. A program that
fails the check has no value at any point. -/
theorem checkArity_runProgram_agree (program : List Token)
    (known : ∀ t ∈ program, t.IsInstruction) :
    (checkArity program = .ok () ↔ ∃ t : Tree, t.postorder = program) ∧
      (∀ t u : Tree, t.postorder = program → u.postorder = program → t = u) ∧
      (∀ t : Tree, t.postorder = program → ∀ x : Float,
        (runProgram program x = .error .divisionByZero ↔ t.DividesByZero x) ∧
          (¬ t.DividesByZero x → runProgram program x = .ok (t.value x))) ∧
      (∀ e, checkArity program = .error e → ∀ x, ∃ e', runProgram program x = .error e') ∧
      EvalError.divisionByZero.message = "Division by zero in expression." := by
  refine ⟨⟨?_, ?_⟩, ?_, ?_, ?_, rfl⟩
  · intro h
    obtain ⟨t, ht⟩ := exists_tree_of_checkArityFrom known [] h
    exact ⟨t, ht⟩
  · rintro ⟨t, rfl⟩
    exact checkArity_postorder t
  · intro t u ht hu
    exact Tree.postorder_inj (ht.trans hu.symm)
  · rintro t rfl x
    refine ⟨⟨?_, runProgram_postorder_of_dividesByZero⟩, runProgram_postorder⟩
    intro failed
    apply Classical.byContradiction
    intro nonzero
    rw [runProgram_postorder nonzero] at failed
    cases failed
  · -- A run that has a value keeps as many values as the check counts.
    intro e refused x
    rcases run : runProgram program x with e' | value
    · exact ⟨e', rfl⟩
    · rw [checkArity_of_runProgram run] at refused
      cases refused

/-- The program of `x / x` passes, and it fails where the variable is zero and nowhere else. -/
theorem checkArity_runProgram_agree_quotient :
    (∀ t ∈ [Token.ofVariable, .ofVariable, .ofOperator .div], t.IsInstruction) ∧
      checkArity [.ofVariable, .ofVariable, .ofOperator .div] = .ok () ∧
      ∀ x : Float, runProgram [.ofVariable, .ofVariable, .ofOperator .div] x =
        .error .divisionByZero ↔ (x == 0.0) = true := by
  have known : ∀ t ∈ [Token.ofVariable, .ofVariable, .ofOperator .div], t.IsInstruction := by
    intro t ht
    simp only [List.mem_cons, List.not_mem_nil, or_false] at ht
    rcases ht with rfl | rfl | rfl
    · exact .inl rfl
    · exact .inl rfl
    · exact .inr (.inl ⟨.div, Token.operator?_ofOperator .div⟩)
  let leaf : Tree := .operand .ofVariable rfl
  obtain ⟨passes, -, agree, -⟩ := checkArity_runProgram_agree _ known
  refine ⟨known, passes.mpr ⟨.binary .div leaf leaf, rfl⟩, fun x => ?_⟩
  rw [(agree (.binary .div leaf leaf) rfl x).1]
  simp [leaf, Tree.binary, Tree.DividesByZero, Tree.value, Token.ofVariable]

end EquationSolver
