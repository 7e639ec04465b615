import EquationSolver.Formula.Scan
import EquationSolver.Proofs.Formula.Tree

/-!
# The grammar of formulas

A formula is a sum of terms, a term a product of unaries, both grouped from the left. A unary is a
power behind any number of signs. The base of a power is a primary and its exponent a unary, so that
powers group from the right and an exponent may have a sign. A primary is an operand, an expression
in parentheses, or a function in front of a primary: a function binds more tightly than a power. A
function in front of a sign applies to all of the unary behind the sign.

## Main definitions

* `Category`, `Derives`: the nonterminals, and the tokens that each derives with their syntax tree
* `IsSentence`: the tokens form an expression
* `Placed`: operands begin exactly where they are expected

## Main results

* `Derives.placed`: in a sentence operands begin exactly where they are expected
-/

namespace EquationSolver

/-- The nonterminals of the grammar. -/
inductive Category where
  | expr
  | term
  | unary
  | power
  | prim
  | signedCall
  deriving DecidableEq

/-- The tokens derived from a nonterminal, with their syntax tree. -/
inductive Derives : Category → List Token → Tree → Prop
  | ofTerm {w t} : Derives .term w t → Derives .expr w t
  | sum {u w s t} (op : Operator) (known : op = .add ∨ op = .sub) :
    Derives .expr u s → Derives .term w t →
      Derives .expr (u ++ .ofOperator op :: w) (.binary op s t)
  | ofUnary {w t} : Derives .unary w t → Derives .term w t
  | product {u w s t} (op : Operator) (known : op = .mul ∨ op = .div) :
    Derives .term u s → Derives .unary w t →
      Derives .term (u ++ .ofOperator op :: w) (.binary op s t)
  | sign {w t} (f : Function) (known : f ∈ Function.signs) :
    Derives .unary w t → Derives .unary (.ofFunction f :: w) (.call f t)
  | ofPower {w t} : Derives .power w t → Derives .unary w t
  | ofPrim {w t} : Derives .prim w t → Derives .power w t
  | power {u w s t} : Derives .prim u s → Derives .unary w t →
      Derives .power (u ++ .ofOperator .pow :: w) (.binary .pow s t)
  | ofSignedCall {w t} : Derives .signedCall w t → Derives .power w t
  | operand (t : Token) (known : t.isOperand) : Derives .prim [t] (.operand t known)
  | paren {w t} : Derives .expr w t → Derives .prim (.leftParen :: w ++ [.rightParen]) t
  | call {w t} (f : Function) (known : f ∈ Function.named) :
    Derives .prim w t → Derives .prim (.ofFunction f :: w) (.call f t)
  | callSign {w t} (f g : Function) (known : f ∈ Function.named) (sign : g ∈ Function.signs) :
    Derives .unary w t →
      Derives .signedCall (.ofFunction f :: .ofFunction g :: w) (.call f (.call g t))
  | callNested {w t} (f : Function) (known : f ∈ Function.named) :
    Derives .signedCall w t → Derives .signedCall (.ofFunction f :: w) (.call f t)

/-- The tokens form an expression. -/
def IsSentence (ts : List Token) : Prop := ∃ t, Derives .expr ts t

/-! ## Where operands begin -/

/-- The token is the first of an operand: it is one, or it is a function, a sign or an opening
parenthesis in front of one. -/
def Token.beginsOperand (t : Token) : Bool := !(t.kind == .operator || t.kind == .rightParen)

theorem Token.placing_of_isOperand {t : Token} (h : t.isOperand) :
    t.beginsOperand = true ∧ t.expectsOperand = false := by
  rcases Token.isOperand_iff.mp h with kind | kind <;>
    simp [beginsOperand, expectsOperand, isOperand, kind]

/-- Operands begin exactly where they are expected, from a place where one is expected or not up to
another such place. -/
def Placed : (expected : Bool) → List Token → (after : Bool) → Prop
  | expected, [], after => expected = after
  | expected, t :: rest, after => t.beginsOperand = expected ∧ Placed t.expectsOperand rest after

theorem Placed.append {p q r : Bool} {u w : List Token} (hu : Placed p u q) (hw : Placed q w r) :
    Placed p (u ++ w) r := by
  induction u generalizing p with
  | nil =>
    obtain rfl : p = q := hu
    exact hw
  | cons t u ih => exact ⟨hu.1, ih hu.2⟩

theorem Placed.operator {p : Bool} {w : List Token} (op : Operator) (h : Placed true w p) :
    Placed false (.ofOperator op :: w) p := ⟨rfl, h⟩

theorem Placed.function {p : Bool} {w : List Token} (f : Function) (h : Placed true w p) :
    Placed true (.ofFunction f :: w) p := ⟨rfl, h⟩

theorem Placed.operand {t : Token} (h : t.isOperand) : Placed true [t] false :=
  Token.placing_of_isOperand h

/-- In a sentence operands begin exactly where they are expected, and none is expected after it. -/
theorem Derives.placed {c : Category} {w : List Token} {t : Tree} (h : Derives c w t) :
    Placed true w false := by
  induction h with
  | ofTerm _ ih | ofUnary _ ih | ofPower _ ih | ofPrim _ ih | ofSignedCall _ ih => exact ih
  | sum op _ _ _ ihu ihw | product op _ _ _ ihu ihw => exact ihu.append (.operator op ihw)
  | power _ _ ihu ihw => exact ihu.append (.operator .pow ihw)
  | sign f _ _ ih | call f _ _ ih | callNested f _ _ ih => exact .function f ih
  | callSign f g _ _ _ ih => exact .function f (.function g ih)
  | operand t known => exact .operand known
  | paren _ ih =>
    -- After a closing parenthesis no operand is expected, as after the tokens inside.
    have closing : Placed false [Token.rightParen] false := ⟨rfl, rfl⟩
    exact Placed.append ⟨rfl, ih⟩ closing

end EquationSolver
