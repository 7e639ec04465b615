import EquationSolver.Proofs.Formula.Acceptance
import EquationSolver.Proofs.Formula.Conservation

/-!
# Operators have a meaning

The compiler looks every operator up in a table. The tokens that the scan cuts a text into contain
only operators of the table, so that no text whatsoever makes the compiler fail for an operator
without an entry.

## Main results

* `Token.IsTerminal.exists_ofText?`: an operator among the tokens of a text is in the table
* `Formula.ofText?_ne_unknownOperator`: compiling never fails for an unknown operator
-/

namespace EquationSolver

variable {name : String}

theorem map_ne_error {α β : Type} {e : Except CompileError α} {cause : CompileError}
    (h : e ≠ .error cause) (g : α → β) : e.map g ≠ .error cause := by
  intro failed
  cases e with
  | ok a => cases failed
  | error cause' => exact h (congrArg Except.error (Except.error.inj failed))

theorem nextToken_ne_unknownOperator (expected : Bool) (length : Nat) (c : Char)
    (rest : List Char) : nextToken expected length c rest ≠ .error (.unknownOperator name) := by
  unfold nextToken nextNumber nextName
  dsimp only
  repeat' split
  all_goals simp

theorem tokensFrom_ne_unknownOperator (expected : Bool) (length : Nat) (cs : List Char) :
    tokensFrom expected length cs ≠ .error (.unknownOperator name) := by
  fun_induction tokensFrom expected length cs with
  | case1 => simp
  | case2 _ _ _ _ ih => exact ih
  | case3 expected c rest _ cause failed =>
    rintro ⟨⟩
    exact nextToken_ne_unknownOperator expected length c rest failed
  | case4 _ _ _ _ _ _ _ ih => exact map_ne_error ih _

/-- An operator among the tokens of a text is in the table. -/
theorem Token.IsTerminal.exists_ofText? {t : Token} (h : t.IsTerminal) (kind : t.kind = .operator) :
    ∃ op, Operator.ofText? t.text = some op := by
  rcases h with operand | ⟨f, -, rfl⟩ | ⟨op, rfl⟩ | rfl | rfl
  · simp [Token.isOperand, kind] at operand
  · cases kind
  · exact ⟨op, op.ofText?_text⟩
  · cases kind
  · cases kind

theorem postfixFrom_ne_unknownOperator {ts : List Token} (terminal : ∀ t ∈ ts, t.IsTerminal)
    (stack : List Token) : postfixFrom stack ts ≠ .error (.unknownOperator name) := by
  -- With operators of the table only the parentheses can be at fault.
  rcases postfixFrom_cases (fun t ht => (terminal t ht).exists_ofText?) stack with
    ⟨-, out, run⟩ | ⟨-, run⟩
  · simp [run]
  · simp [run]

theorem checkArityFrom_ne_unknownOperator (depth : Nat) (program : List Token) :
    checkArityFrom depth program ≠ .error (.unknownOperator name) := by
  fun_induction checkArityFrom depth program with
  | case4 _ _ _ _ ih | case6 _ _ _ _ _ _ ih | case8 _ _ _ _ _ _ ih => exact ih
  | _ => simp

theorem programOf_ne_unknownOperator (text : String) :
    Formula.programOf text ≠ .error (.unknownOperator name) := by
  unfold Formula.programOf
  cases tokens : tokenize text with
  | error cause =>
    rintro ⟨⟩
    exact tokensFrom_ne_unknownOperator _ _ _ tokens
  | ok ts =>
    have terminal := (spells_of_tokensFrom tokens).1.isTerminal
    cases reordered : toPostfix ts with
    | error cause =>
      simp only [bind, Except.bind, reordered]
      rintro ⟨⟩
      exact postfixFrom_ne_unknownOperator terminal [] reordered
    | ok program =>
      simp only [bind, Except.bind, reordered]
      cases passes : checkArity program with
      | error cause =>
        rintro ⟨⟩
        exact checkArityFrom_ne_unknownOperator 0 program passes
      | ok => simp [pure, Except.pure]

/-- Compiling never fails for an unknown operator. -/
theorem Formula.ofText?_ne_unknownOperator (text : Option String) :
    Formula.ofText? text ≠ .error (.unknownOperator name) := by
  match text with
  | none => simp [ofText?]
  | some text =>
    change Formula.compile text ≠ _
    unfold Formula.compile
    split
    · simp
    · exact map_ne_error (programOf_ne_unknownOperator text) _

end EquationSolver
