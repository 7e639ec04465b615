import EquationSolver.Proofs.Formula.Arity
import EquationSolver.Proofs.Formula.Raising

/-!
# Formulas are safe to call

A text compiles or is refused, and nothing else happens: no lookup misses and no stack runs out on
the way. What compiles can be called at every point, where it has a value or divides by zero.

The two halves meet in the program. It holds the tokens of the text without the parentheses, so each
of its tokens is an operand or has an entry in a table; and it has passed the check, so it is the
postorder of a tree. The run of a postorder finds its operands wherever they are asked for.

## Main definitions

* `Formula.IsSafe`: the program has instructions only, and a call has a value or divides by zero

## Main results

* `Formula.isInstruction_of_ofText?`: a program has instructions only
* `Formula.exists_postorder_of_ofText?`: a program is the postorder of a tree
* `Formula.compile_safe`: a text is refused or compiles into a formula that is safe to call
-/

namespace EquationSolver

/-- A token of a text is an instruction unless it is a parenthesis. -/
theorem Token.IsTerminal.isInstruction {t : Token} (h : t.IsTerminal) (plain : t.isParen = false) :
    t.IsInstruction := by
  rcases h with operand | ⟨f, -, rfl⟩ | ⟨op, rfl⟩ | rfl | rfl
  · exact .inl operand
  · exact .inr (.inr ⟨f, Token.function?_ofFunction f⟩)
  · exact .inr (.inl ⟨op, Token.operator?_ofOperator op⟩)
  · cases plain
  · cases plain

namespace Formula

variable {text : Option String} {f : Formula}

/-- The stages that a text has passed when it compiles. -/
theorem stages_of_ofText? (compiled : Formula.ofText? text = .ok f) :
    ∃ ts : List Token, (∀ t ∈ ts, t.IsTerminal) ∧ toPostfix ts = .ok f.program ∧
      checkArity f.program = .ok () := by
  cases text with
  | none => cases compiled
  | some text =>
    obtain ⟨-, -, program⟩ := compile_eq_ok_iff.mp compiled
    obtain ⟨ts, tokens, reordered, passes⟩ := programOf_eq_ok_iff.mp program
    exact ⟨ts, (spells_of_tokensFrom tokens).1.isTerminal, reordered, passes⟩

/-- A program has instructions only, and no parenthesis is left in it. -/
theorem isInstruction_of_ofText? (compiled : Formula.ofText? text = .ok f) :
    ∀ t ∈ f.program, t.IsInstruction ∧ t.isParen = false := by
  obtain ⟨ts, terminal, reordered, -⟩ := stages_of_ofText? compiled
  intro t ht
  obtain ⟨source, plain⟩ := mem_of_mem_toPostfix reordered ht
  exact ⟨(terminal t source).isInstruction plain, plain⟩

/-- A program is the postorder of a tree. -/
theorem exists_postorder_of_ofText? (compiled : Formula.ofText? text = .ok f) :
    ∃ t : Tree, t.postorder = f.program := by
  obtain ⟨-, -, -, passes⟩ := stages_of_ofText? compiled
  have known : ∀ t ∈ f.program, t.IsInstruction := fun t ht =>
    (isInstruction_of_ofText? compiled t ht).1
  exact exists_tree_of_checkArityFrom known [] passes

/-- A call of a formula has a value or divides by zero. -/
theorem eval_of_ofText? (compiled : Formula.ofText? text = .ok f) (x : Float) :
    (∃ y, f.eval x = .ok y) ∨ f.eval x = .error .divisionByZero := by
  obtain ⟨t, program⟩ := exists_postorder_of_ofText? compiled
  rw [Formula.eval, ← program]
  by_cases divides : t.DividesByZero x
  · exact .inr (runProgram_postorder_of_dividesByZero divides)
  · exact .inl ⟨t.value x, runProgram_postorder divides⟩

/-- A formula is safe to call. -/
structure IsSafe (f : Formula) : Prop where
  /-- The program has operands, operators and functions only, the latter two known, and no
  parenthesis. -/
  instructions : ∀ t ∈ f.program, t.IsInstruction ∧ t.isParen = false
  /-- A call raises nothing but that it divides by zero. -/
  call : ∀ x : Float, (∃ y, Raising.eval f x = .ok y ∧ f.eval x = .ok y) ∨
    Raising.eval f x = .error (.evaluation .divisionByZero) ∧ f.eval x = .error .divisionByZero

/-- What compiles is safe to call. -/
theorem isSafe_of_ofText? (compiled : Formula.ofText? text = .ok f) : f.IsSafe := by
  refine ⟨isInstruction_of_ofText? compiled, ?_⟩
  intro x
  rw [Raising.eval_eq]
  rcases eval_of_ofText? compiled x with ⟨y, value⟩ | divides
  · rw [value]
    exact .inl ⟨y, rfl, rfl⟩
  · rw [divides]
    exact .inr ⟨rfl, rfl⟩

/-- **Compiling does not crash, and what compiles is safe to call.** A text is refused for a cause
of its own, and never because an operator has no entry, a literal is no number or a stack is empty;
or it compiles into a formula that has a value at every point where it does not divide by zero. -/
theorem compile_safe (text : Option String) :
    ((∃ cause, Raising.compile text = .error (.compilation cause) ∧
        Formula.ofText? text = .error cause ∧ ∀ name, cause ≠ .unknownOperator name) ∨
      ∃ f, Raising.compile text = .ok f ∧ Formula.ofText? text = .ok f ∧ f.IsSafe) ∧
      EvalError.divisionByZero.message = "Division by zero in expression." := by
  refine ⟨?_, rfl⟩
  rw [Raising.compile_eq]
  cases compiled : Formula.ofText? text with
  | error cause =>
    refine .inl ⟨cause, rfl, rfl, ?_⟩
    rintro name rfl
    exact Formula.ofText?_ne_unknownOperator text compiled
  | ok f => exact .inr ⟨f, rfl, rfl, isSafe_of_ofText? compiled⟩

end Formula

end EquationSolver
