import EquationSolver.Proofs.Formula.Numeral
import EquationSolver.Proofs.Formula.Operators

/-!
# Compiling and running with exceptions

The stages from a text to a value are stated here once more over computations that can raise an
exception. A literal is read by the reader of numbers, which refuses what it does not know; an
operator is looked up in a table, also while it waits; and a stack is popped, which fails when the
stack is empty. None of these tests anything by itself. What keeps them from failing is established
stages before: the reader is given literals only, the table is asked for operators of a text only,
and the stack of values is as deep as the check of the program found it.

## Main definitions

* `Formula.Exception`: what can be raised
* `Raising.readNumber`, `Raising.findOperator`, `Raising.pop`: the operations that raise
* `Raising.tokenize`, `Raising.toPostfix`, `Raising.compile`, `Raising.eval`: the stages

## Main results

* `Raising.compile_eq`: compiling raises only what is wrong with a text
* `Raising.eval_eq`: running raises only what is wrong with a program
-/

namespace EquationSolver.Formula

/-- What can be raised. -/
inductive Exception where
  /-- A text is no formula. -/
  | compilation (cause : CompileError)
  /-- A program has no value. -/
  | evaluation (cause : EvalError)
  /-- The table of operators has no entry. -/
  | noOperator (text : String)
  /-- A text is no number. -/
  | noNumber (text : String)
  /-- A stack is empty. -/
  | emptyStack

namespace Raising

/-! ## Operations -/

/-- The double that a text writes. -/
def readNumber (text : String) : Except Exception Float :=
  match readFloat? text with
  | some x => .ok x
  | none => .error (.noNumber text)

/-- The entry of the table of operators. -/
def findOperator (text : String) : Except Exception Operator :=
  match Operator.ofText? text with
  | some op => .ok op
  | none => .error (.noOperator text)

/-- The top of a stack, and what is below it. -/
def pop {β : Type} : List β → Except Exception (β × List β)
  | [] => .error .emptyStack
  | b :: below => .ok (b, below)

/-! ## Tokens -/

/-- The number at the start of what is left of a text. -/
def nextNumber (length : Nat) (cs : List Char) : Except Exception (Token × List Char) :=
  match Literal.scan? cs with
  | none => .error (.compilation (.invalidNumber (positionOf length cs)))
  | some (l, rest) =>
    if rest.head? = some '.' then
      .error (.compilation (.invalidNumber (positionOf length cs)))
    else do
      let value ← readNumber (.ofList l.text)
      return (⟨.number, .ofList l.text, value⟩, rest)

/-- The token at the start of what is left of a text. -/
def nextToken (expected : Bool) (length : Nat) (c : Char) (rest : List Char) :
    Except Exception (Token × List Char) :=
  if isAsciiDigit c || c = '.' then nextNumber length (c :: rest)
  else (EquationSolver.nextToken expected length c rest).mapError .compilation

/-! A literal is read, so a number raises nothing but what is wrong with the text. -/

theorem nextNumber_eq (length : Nat) (cs : List Char) :
    nextNumber length cs = (EquationSolver.nextNumber length cs).mapError .compilation := by
  unfold nextNumber EquationSolver.nextNumber
  rcases scanned : Literal.scan? cs with - | ⟨l, rest⟩
  · rfl
  dsimp only
  split
  · rfl
  · rw [readNumber, Literal.readFloat?_text (Literal.wellFormed_of_scan? scanned)]
    rfl

theorem nextToken_eq (expected : Bool) (length : Nat) (c : Char) (rest : List Char) :
    nextToken expected length c rest =
      (EquationSolver.nextToken expected length c rest).mapError .compilation := by
  unfold nextToken
  split
  · rename_i number
    rw [nextNumber_eq, EquationSolver.nextToken, if_pos number]
  · rfl

theorem length_lt_of_nextToken_eq_ok {expected : Bool} {length : Nat} {c : Char}
    {rest rest' : List Char} {t : Token} (h : nextToken expected length c rest = .ok (t, rest')) :
    rest'.length < (c :: rest).length := by
  rw [nextToken_eq] at h
  cases taken : EquationSolver.nextToken expected length c rest with
  | error cause => rw [taken] at h; cases h
  | ok found =>
    rw [taken] at h
    cases h
    exact length_lt_of_nextToken taken

/-- The tokens of what is left of a text. -/
def tokensFrom (expected : Bool) (length : Nat) : List Char → Except Exception (List Token)
  | [] => .ok []
  | c :: rest =>
    if Text.isBlank c then tokensFrom expected length rest
    else match _taken : nextToken expected length c rest with
      | .error e => .error e
      | .ok (t, rest') => (tokensFrom t.expectsOperand length rest').map (t :: ·)
termination_by cs => cs.length
decreasing_by
  · simp
  · exact length_lt_of_nextToken_eq_ok ‹_›

/-- The tokens of a text. -/
def tokenize (text : String) : Except Exception (List Token) :=
  tokensFrom true text.length text.toList

/-! ## Postfix order -/

/-- How tightly a waiting token binds. -/
def precedence (t : Token) : Except Exception Nat :=
  if t.kind = .operator then (findOperator t.text).map Operator.precedence
  else .ok (if t.isSign then Token.signPrecedence else Token.functionPrecedence)

/-- What an operator releases, and what still waits. -/
def release (op : Operator) : List Token → Except Exception (List Token × List Token)
  | [] => .ok ([], [])
  | t :: below =>
    if t.kind = .leftParen then .ok ([], t :: below)
    else do
      let top ← precedence t
      if op.precedence < top || (top == op.precedence && !op.isRightAssoc) then
        let (released, waiting) ← release op below
        return (t :: released, waiting)
      else return ([], t :: below)

/-- Whether a waiting token is a function that is no sign. -/
def isCall (t : Token) : Except Exception Bool :=
  if t.kind = .function then (precedence t).map (· == Token.functionPrecedence) else .ok false

/-- What a closing parenthesis releases, and what still waits. The stack is popped once for its
partner, and once more for a function in front of that. -/
def closeParen (stack : List Token) : Except Exception (List Token × List Token) :=
  let inner := stack.takeWhile (·.kind != .leftParen)
  let outer := stack.dropWhile (·.kind != .leftParen)
  if outer.isEmpty then throw (.compilation .unbalanced)
  else do
    let (_, below) ← pop outer
    if below.isEmpty then return (inner, below)
    else
      let (f, waiting) ← pop below
      return if ← isCall f then (inner ++ [f], waiting) else (inner, below)

/-- The postfix order of the tokens still to come, above the waiting ones. -/
def postfixFrom : (stack : List Token) → List Token → Except Exception (List Token)
  | stack, [] =>
    if stack.any (·.kind == .leftParen) then throw (.compilation .unbalanced) else return stack
  | stack, t :: rest =>
    match t.kind with
    | .number | .variable => return t :: (← postfixFrom stack rest)
    | .function | .leftParen => postfixFrom (t :: stack) rest
    | .operator => do
      let op ← findOperator t.text
      let (released, waiting) ← release op stack
      return released ++ (← postfixFrom (t :: waiting) rest)
    | .rightParen => do
      let (released, waiting) ← closeParen stack
      return released ++ (← postfixFrom waiting rest)

/-- The tokens in postfix order. -/
def toPostfix (tokens : List Token) : Except Exception (List Token) := postfixFrom [] tokens

/-! ## Formulas and values -/

/-- The program of a text that is not blank. -/
def programOf (text : String) : Except Exception (List Token) := do
  let program ← toPostfix (← tokenize text)
  (checkArity program).mapError .compilation
  return program

/-- The formula of a text that may be missing. -/
def compile : Option String → Except Exception Formula
  | none => throw (.compilation .empty)
  | some text =>
    if Text.isBlankText text then throw (.compilation .empty) else (programOf text).map (⟨text, ·⟩)

/-- The stack after one token, with the variable at `x`. -/
def step (x : Float) (t : Token) (stack : List Float) : Except Exception (List Float) :=
  match t.kind with
  | .number => return t.value :: stack
  | .variable => return x :: stack
  | .operator =>
    if stack.length < 2 then throw (.evaluation .notEnoughOperands)
    else do
      let (right, below) ← pop stack
      let (left, below) ← pop below
      return (← (applyOperator t.text left right).mapError .evaluation) :: below
  | .function =>
    if stack.isEmpty then throw (.evaluation .noArgument)
    else do
      let (argument, below) ← pop stack
      return (← (applyFunction t.text argument).mapError .evaluation) :: below
  | .leftParen | .rightParen => throw (.evaluation (.unexpectedToken t.text))

/-- The stack after a row of tokens. -/
def runFrom (x : Float) : (stack : List Float) → List Token → Except Exception (List Float)
  | stack, [] => return stack
  | stack, t :: rest => do runFrom x (← step x t stack) rest

/-- The value of a formula at a point. -/
def eval (f : Formula) (x : Float) : Except Exception Float := do
  let stack ← runFrom x [] f.program
  if stack.length = 1 then return (← pop stack).1 else throw (.evaluation .notOneValue)

/-! ## What is raised -/

theorem tokensFrom_eq (expected : Bool) (length : Nat) (cs : List Char) :
    tokensFrom expected length cs =
      (EquationSolver.tokensFrom expected length cs).mapError .compilation := by
  fun_induction EquationSolver.tokensFrom expected length cs with
  | case1 =>
    rw [tokensFrom]
    rfl
  | case2 expected c rest blank ih =>
    rw [tokensFrom, if_pos blank]
    exact ih
  | case3 expected c rest visible cause failed =>
    have raised := nextToken_eq expected length c rest
    rw [failed] at raised
    rw [tokensFrom, if_neg visible]
    split
    · rename_i raised'
      exact congrArg Except.error (Except.error.inj (raised'.symm.trans raised))
    · rename_i found
      cases found.symm.trans raised
  | case4 expected c rest visible t rest' found ih =>
    have found' := nextToken_eq expected length c rest
    rw [found] at found'
    rw [tokensFrom, if_neg visible]
    split
    · rename_i raised
      cases raised.symm.trans found'
    · rename_i found''
      cases found''.symm.trans found'
      rw [ih]
      cases EquationSolver.tokensFrom t.expectsOperand length rest' <;> rfl

/-- Every operator among the tokens is in the table. -/
def Known (ts : List Token) : Prop :=
  ∀ t ∈ ts, t.kind = .operator → ∃ op, Operator.ofText? t.text = some op

theorem precedence_eq {t : Token}
    (known : t.kind = .operator → ∃ op, Operator.ofText? t.text = some op) :
    precedence t = .ok t.precedence := by
  unfold precedence Token.precedence
  cases kind : t.kind with
  | operator =>
    obtain ⟨op, found⟩ := known kind
    rw [if_pos rfl, findOperator, found]
    rfl
  | _ => rfl

theorem isCall_eq (t : Token) : isCall t = .ok t.isCall := by
  unfold isCall Token.isCall
  by_cases function : t.kind = .function
  · have found : precedence t = .ok t.precedence := precedence_eq fun operator => by
      cases function.symm.trans operator
    rw [if_pos function, found, function, Token.precedence, function]
    cases t.isSign <;> rfl
  · rw [if_neg function, beq_false_of_ne function]
    rfl

/-- An operator releases what yields to it. -/
theorem release_eq (op : Operator) {stack : List Token} (known : Known stack) :
    release op stack =
      .ok (stack.takeWhile (Token.yieldsTo op), stack.dropWhile (Token.yieldsTo op)) := by
  induction stack with
  | nil => rfl
  | cons t below ih =>
    have later := ih fun u hu => known u (List.mem_cons_of_mem t hu)
    rw [release, List.takeWhile_cons, List.dropWhile_cons]
    by_cases paren : t.kind = .leftParen
    · have stays : t.yieldsTo op = false := by simp [Token.yieldsTo, paren]
      rw [if_pos paren, stays]
      rfl
    · have yields : t.yieldsTo op = (op.precedence < t.precedence ||
          (t.precedence == op.precedence && !op.isRightAssoc)) := by
        simp [Token.yieldsTo, paren]
      rw [if_neg paren, precedence_eq (known t List.mem_cons_self), yields, later]
      dsimp only [bind, Except.bind, pure, Except.pure]
      split <;> rfl

theorem closeParen_eq (stack : List Token) :
    closeParen stack = (EquationSolver.closeParen stack).mapError .compilation := by
  unfold closeParen EquationSolver.closeParen
  dsimp only
  generalize stack.takeWhile (·.kind != .leftParen) = inner
  generalize stack.dropWhile (·.kind != .leftParen) = outer
  -- The stack is popped twice, each time where it has been seen not to be empty.
  match outer with
  | [] => rfl
  | [_] => rfl
  | _ :: f :: below =>
    show (do
      let call ← isCall f
      return if call then (inner ++ [f], below) else (inner, f :: below)) = _
    rw [isCall_eq]
    rfl

theorem postfixFrom_eq {stack ts : List Token} (waiting : Known stack) (known : Known ts) :
    postfixFrom stack ts = (EquationSolver.postfixFrom stack ts).mapError .compilation := by
  -- What waits is always a part of what has been read, so it stays among the known operators.
  induction ts generalizing stack with
  | nil =>
    rw [postfixFrom, EquationSolver.postfixFrom]
    split <;> rfl
  | cons t rest ih =>
    have later {stack : List Token} (waiting : Known stack) :=
      ih waiting fun u hu => known u (List.mem_cons_of_mem t hu)
    have pushed {stack : List Token} (waiting : Known stack) : Known (t :: stack) := by
      intro u hu
      rcases List.mem_cons.mp hu with rfl | hu
      · exact known u List.mem_cons_self
      · exact waiting u hu
    rw [postfixFrom, EquationSolver.postfixFrom]
    cases kind : t.kind with
    | function | leftParen => exact later (pushed waiting)
    | operator =>
      obtain ⟨op, found⟩ := known t List.mem_cons_self kind
      have kept : Known (stack.dropWhile (Token.yieldsTo op)) := fun u hu =>
        waiting u ((List.dropWhile_sublist _).mem hu)
      rw [findOperator, found]
      dsimp only [bind, Except.bind]
      rw [release_eq op waiting]
      dsimp only
      rw [later (pushed kept)]
      cases EquationSolver.postfixFrom (t :: stack.dropWhile (Token.yieldsTo op)) rest <;> rfl
    | rightParen =>
      dsimp only
      rw [closeParen_eq]
      rcases closed : EquationSolver.closeParen stack with cause | ⟨released, stack'⟩
      · rfl
      · obtain ⟨p, -, perm, -⟩ := closeParen_eq_ok closed
        have kept : Known stack' := fun u hu => waiting u (perm.mem_iff.mpr (by simp [hu]))
        dsimp only [Except.mapError, bind, Except.bind]
        rw [later kept]
        cases EquationSolver.postfixFrom stack' rest <;> rfl
    | _ =>
      dsimp only
      rw [later waiting]
      cases EquationSolver.postfixFrom stack rest <;> rfl

theorem programOf_eq (text : String) :
    programOf text = (Formula.programOf text).mapError .compilation := by
  unfold programOf Formula.programOf
  rw [tokenize, tokensFrom_eq]
  rcases tokens : EquationSolver.tokenize text with cause | ts
  · rw [EquationSolver.tokenize] at tokens
    rw [tokens]
    rfl
  · have known : Known ts := fun t ht kind =>
      ((spells_of_tokensFrom tokens).1.isTerminal t ht).exists_ofText? kind
    rw [EquationSolver.tokenize] at tokens
    rw [tokens]
    dsimp only [Except.mapError, bind, Except.bind]
    rw [toPostfix, postfixFrom_eq (List.forall_mem_nil _) known, EquationSolver.toPostfix]
    cases EquationSolver.postfixFrom [] ts with
    | error cause => rfl
    | ok program =>
      dsimp only [Except.mapError]
      cases checkArity program <;> rfl

/-- Compiling raises only what is wrong with a text. -/
theorem compile_eq (text : Option String) :
    compile text = (Formula.ofText? text).mapError .compilation := by
  cases text with
  | none => rfl
  | some text =>
    rw [compile, Formula.ofText?, Formula.compile]
    split
    · rfl
    · rw [programOf_eq]
      cases Formula.programOf text <;> rfl

theorem step_eq (x : Float) (t : Token) (stack : List Float) :
    step x t stack = (stepProgram x t stack).mapError .evaluation := by
  unfold step stepProgram
  cases t.kind with
  | operator =>
    -- An operator pops twice, and only where there are two values.
    match stack with
    | [] => rfl
    | [_] => rfl
    | right :: left :: below =>
      dsimp only [pop, bind, Except.bind]
      rw [if_neg (by simp)]
      cases applyOperator t.text left right <;> rfl
  | function =>
    match stack with
    | [] => rfl
    | argument :: below =>
      dsimp only [pop, bind, Except.bind]
      rw [if_neg (by simp)]
      cases applyFunction t.text argument <;> rfl
  | _ => rfl

theorem runFrom_eq (x : Float) (stack : List Float) (program : List Token) :
    runFrom x stack program = (EquationSolver.runFrom x stack program).mapError .evaluation := by
  induction program generalizing stack with
  | nil => rfl
  | cons t rest ih =>
    rw [runFrom, EquationSolver.runFrom, step_eq]
    cases stepProgram x t stack with
    | error cause => rfl
    | ok stack' => exact ih stack'

/-- Running raises only what is wrong with a program. -/
theorem eval_eq (f : Formula) (x : Float) : eval f x = (f.eval x).mapError .evaluation := by
  unfold eval Formula.eval runProgram
  rw [runFrom_eq]
  -- The value is popped only off a stack with one value on it.
  match EquationSolver.runFrom x [] f.program with
  | .error cause => rfl
  | .ok [] => rfl
  | .ok [value] => rfl
  | .ok (_ :: _ :: _) => rfl

end Raising

end EquationSolver.Formula
