import EquationSolver.Proofs.Formula.Compilation
import EquationSolver.Proofs.Formula.Parentheses
import Mathlib.Data.List.Chain

/-!
# What the compiler accepts

The compiler has no parser: it checks that operators and signs stand where they may, that
parentheses match, and that the reordered tokens find their operands. These checks let through every
sentence of the grammar, and besides them exactly texts in which an operand begins right behind
another one, such as `2 3 +`.

## Main definitions

* `Awaits`: some tokens that every unary completes to a sentence
* `Separated`: no operand begins right behind another
* `SpellsSentence`: a text spells a sentence

## Main results

* `isSentence_of_placed`: tokens in which operands begin exactly where they are expected form a
  sentence, if the parentheses are balanced
* `placed_of_checkArity`: in accepted tokens where no operand begins right behind another, operands
  begin exactly where they are expected
* `spellsSentence_iff_compile`: the sentences among the texts that compile
-/

namespace EquationSolver

/-! ## Completing a sentence -/

/-- The tokens form a unary. -/
def IsUnary (w : List Token) : Prop := ∃ t, Derives .unary w t

theorem IsUnary.operand {t : Token} (h : t.isOperand) : IsUnary [t] :=
  ⟨_, .ofPower (.ofPrim (.operand t h))⟩

theorem IsUnary.paren {w : List Token} (h : IsSentence w) :
    IsUnary (.leftParen :: w ++ [.rightParen]) := by
  obtain ⟨t, ht⟩ := h
  exact ⟨t, .ofPower (.ofPrim (.paren ht))⟩

theorem IsUnary.isSentence {w : List Token} (h : IsUnary w) : IsSentence w := by
  obtain ⟨t, ht⟩ := h
  exact ⟨t, .ofTerm (.ofUnary ht)⟩

/-- A sign or a function in front of a unary makes a unary: the function takes the base of a power,
or all that is behind a sign. -/
theorem IsUnary.function {w : List Token} {f : Function}
    (known : f ∈ Function.named ∨ f ∈ Function.signs) (h : IsUnary w) :
    IsUnary (.ofFunction f :: w) := by
  obtain ⟨t, ht⟩ := h
  rcases known with named | sign
  · -- The rule for the function depends on what the unary begins with.
    cases ht with
    | sign g known ht => exact ⟨_, .ofPower (.ofSignedCall (.callSign f g named known ht))⟩
    | ofPower ht =>
      cases ht with
      | ofPrim ht => exact ⟨_, .ofPower (.ofPrim (.call f named ht))⟩
      | power hu hw => exact ⟨_, .ofPower (.power (.call f named hu) hw)⟩
      | ofSignedCall ht => exact ⟨_, .ofPower (.ofSignedCall (.callNested f named ht))⟩
  · exact ⟨_, .sign f sign ht⟩

/-- The last unary of some tokens can be raised to a power. -/
theorem Derives.pow_last {c : Category} {u w : List Token} {t : Tree} (h : Derives c u t)
    (notPrim : c ≠ .prim) (hw : IsUnary w) : ∃ t', Derives c (u ++ .ofOperator .pow :: w) t' := by
  obtain ⟨s, hs⟩ := hw
  -- The induction goes down to the last primary, which becomes the base.
  induction h with
  | ofTerm _ ih =>
    obtain ⟨t', ht'⟩ := ih nofun
    exact ⟨t', .ofTerm ht'⟩
  | sum op known hu _ _ ih =>
    obtain ⟨t', ht'⟩ := ih nofun
    exact ⟨_, by simpa using Derives.sum op known hu ht'⟩
  | ofUnary _ ih =>
    obtain ⟨t', ht'⟩ := ih nofun
    exact ⟨t', .ofUnary ht'⟩
  | product op known hu _ _ ih =>
    obtain ⟨t', ht'⟩ := ih nofun
    exact ⟨_, by simpa using Derives.product op known hu ht'⟩
  | sign f known _ ih =>
    obtain ⟨t', ht'⟩ := ih nofun
    exact ⟨_, .sign f known ht'⟩
  | ofPower _ ih =>
    obtain ⟨t', ht'⟩ := ih nofun
    exact ⟨t', .ofPower ht'⟩
  | ofPrim hu => exact ⟨_, .power hu hs⟩
  | power hu _ _ ih =>
    obtain ⟨t', ht'⟩ := ih nofun
    exact ⟨_, by simpa using Derives.power hu ht'⟩
  | ofSignedCall _ ih =>
    obtain ⟨t', ht'⟩ := ih nofun
    exact ⟨t', .ofSignedCall ht'⟩
  | operand | paren | call => exact absurd rfl notPrim
  | callSign f g known sign _ ih =>
    obtain ⟨t', ht'⟩ := ih nofun
    exact ⟨_, .callSign f g known sign ht'⟩
  | callNested f known _ ih =>
    obtain ⟨t', ht'⟩ := ih nofun
    exact ⟨_, .callNested f known ht'⟩

/-- A sentence goes on with an operator and a unary. -/
theorem IsSentence.operator {u w : List Token} (hu : IsSentence u) (op : Operator)
    (hw : IsUnary w) : IsSentence (u ++ .ofOperator op :: w) := by
  obtain ⟨s, hs⟩ := hu
  obtain ⟨t, ht⟩ := id hw
  have product (known : op = .mul ∨ op = .div) : IsSentence (u ++ .ofOperator op :: w) := by
    cases hs with
    | ofTerm hs => exact ⟨_, .ofTerm (.product op known hs ht)⟩
    | sum op' known' hu hv =>
      exact ⟨_, by simpa using Derives.sum op' known' hu (.product op known hv ht)⟩
  match op with
  | .add => exact ⟨_, .sum .add (.inl rfl) hs (.ofUnary ht)⟩
  | .sub => exact ⟨_, .sum .sub (.inr rfl) hs (.ofUnary ht)⟩
  | .mul => exact product (.inl rfl)
  | .div => exact product (.inr rfl)
  | .pow => exact hs.pow_last nofun hw

/-- Every unary completes the tokens to a sentence. -/
def Awaits (p : List Token) : Prop := ∀ w, IsUnary w → IsSentence (p ++ w)

theorem awaits_nil : Awaits [] := fun _ h => h.isSentence

theorem Awaits.function {p : List Token} {f : Function}
    (known : f ∈ Function.named ∨ f ∈ Function.signs) (h : Awaits p) :
    Awaits (p ++ [.ofFunction f]) := by
  intro w hw
  rw [List.append_assoc]
  exact h _ (hw.function known)

theorem IsSentence.awaits {u : List Token} (h : IsSentence u) (op : Operator) :
    Awaits (u ++ [.ofOperator op]) := by
  intro w hw
  rw [List.append_assoc]
  exact h.operator op hw

/-! ## Reading from the left -/

/-- The tokens that a grammar of formulas has: operands, functions, signs, operators and
parentheses. -/
def Token.IsTerminal (t : Token) : Prop :=
  t.isOperand ∨ (∃ f, (f ∈ Function.named ∨ f ∈ Function.signs) ∧ t = .ofFunction f) ∨
    (∃ op, t = .ofOperator op) ∨ t = .leftParen ∨ t = .rightParen

/-- Tokens inside open parentheses, with what stands in front of each, the innermost first. -/
def enclosed : (fronts : List (List Token)) → List Token → List Token
  | [], w => w
  | p :: fronts, w => enclosed fronts (p ++ .leftParen :: w)

/-- Where an operand is expected a unary completes the tokens; elsewhere they are a sentence. -/
def Ready (expected : Bool) (w : List Token) : Prop := if expected then Awaits w else IsSentence w

/-- What is read inside open parentheses goes on to a sentence, if operands begin exactly where they
are expected and the parentheses are closed. -/
theorem isSentence_enclosed {ts : List Token} (terminal : ∀ t ∈ ts, t.IsTerminal)
    {fronts : List (List Token)} (await : ∀ p ∈ fronts, Awaits p)
    (balanced : Balanced fronts.length ts) {expected : Bool} {w : List Token}
    (ready : Ready expected w) (placed : Placed expected ts false) :
    IsSentence (enclosed fronts (w ++ ts)) := by
  induction ts generalizing fronts expected w with
  | nil =>
    obtain rfl : expected = false := placed
    obtain rfl : fronts = [] := List.length_eq_zero_iff.mp balanced
    simpa [enclosed] using show IsSentence w from ready
  | cons t rest ih =>
    -- A token either extends what stands inside the innermost parenthesis, or opens or closes one.
    have later := @ih fun u hu => terminal u (List.mem_cons_of_mem t hu)
    obtain ⟨begins, placed⟩ := placed
    rcases terminal t List.mem_cons_self with operand | ⟨f, known, rfl⟩ | ⟨op, rfl⟩ | rfl | rfl
    · have noParen := Token.isParen_of_isOperand operand
      obtain ⟨starts, after⟩ := Token.placing_of_isOperand operand
      obtain rfl : true = expected := starts.symm.trans begins
      rw [after] at placed
      have next : Ready false (w ++ [t]) := ready _ (.operand operand)
      simpa using later await ((balanced_other noParen _ _).mp balanced) next placed
    · obtain rfl : true = expected := begins
      have next : Ready true (w ++ [.ofFunction f]) := Awaits.function known ready
      simpa using later await ((balanced_other rfl _ _).mp balanced) next placed
    · obtain rfl : false = expected := begins
      have next : Ready true (w ++ [.ofOperator op]) := IsSentence.awaits ready op
      simpa using later await ((balanced_other rfl _ _).mp balanced) next placed
    · obtain rfl : true = expected := begins
      have await' : ∀ p ∈ w :: fronts, Awaits p := by
        intro p hp
        rcases List.mem_cons.mp hp with rfl | hp
        · exact ready
        · exact await p hp
      have inside : Ready true [] := awaits_nil
      exact later await' ((balanced_leftParen rfl _ _).mp balanced) inside placed
    · obtain rfl : false = expected := begins
      obtain ⟨some, balanced⟩ := (balanced_rightParen rfl _ _).mp balanced
      cases fronts with
      | nil => cases some
      | cons p fronts =>
        -- The parentheses with what is inside complete what stands in front of them.
        have next : Ready false (p ++ (.leftParen :: w ++ [.rightParen])) :=
          await p List.mem_cons_self _ (.paren ready)
        have whole := later (fun q hq => await q (List.mem_cons_of_mem p hq)) balanced next placed
        simpa [enclosed] using whole

/-- Tokens in which operands begin exactly where they are expected form a sentence, if the
parentheses are balanced. -/
theorem isSentence_of_placed {ts : List Token} (terminal : ∀ t ∈ ts, t.IsTerminal)
    (balanced : Balanced 0 ts) (placed : Placed true ts false) : IsSentence ts := by
  have outside : ∀ p ∈ ([] : List (List Token)), Awaits p := nofun
  have nothing : Ready true [] := awaits_nil
  exact isSentence_enclosed terminal outside balanced nothing placed

/-! ## Counting operands -/

/-- A program that passes the check has one operand more than operators. -/
theorem countP_of_checkArityFrom {depth : Nat} {program : List Token}
    (h : checkArityFrom depth program = .ok ()) :
    depth + program.countP (·.isOperand) = program.countP (·.kind == .operator) + 1 := by
  induction program generalizing depth with
  | nil =>
    simp only [checkArityFrom] at h
    split at h
    · cases h
    · split at h
      · cases h
      · simp only [List.countP_nil]
        omega
  | cons t rest ih =>
    rw [checkArityFrom] at h
    split at h
    · rename_i operand
      have count := ih h
      rcases Token.isOperand_iff.mp operand with kind | kind <;>
        simp [operand, kind] <;> omega
    · rename_i noOperand
      split at h
      · rename_i kind
        split at h
        · cases h
        · have count := ih h
          simp [noOperand, kind]
          omega
      · rename_i noOperator
        split at h
        · cases h
        · simpa [noOperand, noOperator] using ih h

/-- No operand begins right behind another one. -/
def Separated (ts : List Token) : Prop :=
  ts.IsChain fun t u => u.beginsOperand → t.expectsOperand

/-- The operands before a place where none is expected: the last of them is complete. -/
def complete (expected : Bool) : Nat := if expected then 0 else 1

/-- A token is an operand, an operator, opens an operand or closes one. -/
theorem Token.placing_cases (t : Token) :
    (t.isOperand = true ∧ (t.kind == .operator) = false ∧ t.beginsOperand = true ∧
        t.expectsOperand = false) ∨
      (t.isOperand = false ∧ (t.kind == .operator) = true ∧ t.beginsOperand = false ∧
        t.expectsOperand = true) ∨
      (t.isOperand = false ∧ (t.kind == .operator) = false ∧ t.beginsOperand = true ∧
        t.expectsOperand = true) ∨
      (t.isOperand = false ∧ (t.kind == .operator) = false ∧ t.beginsOperand = false ∧
        t.expectsOperand = false) := by
  cases kind : t.kind <;> simp [isOperand, beginsOperand, expectsOperand, kind]

/-- Where no operand begins right behind another one, there are at most as many of them as the
operators take. There are as many only if each begins where it is expected. -/
theorem placed_of_countP {expected : Bool} {ts : List Token} (signed : Signed expected ts)
    (first : ∀ t ∈ ts.head?, t.beginsOperand → expected) (separated : Separated ts) :
    complete expected + ts.countP (·.isOperand) ≤ ts.countP (·.kind == .operator) + 1 ∧
      (complete expected + ts.countP (·.isOperand) = ts.countP (·.kind == .operator) + 1 →
        Placed expected ts false) := by
  induction ts generalizing expected with
  | nil => cases expected <;> simp [complete, Placed]
  | cons t rest ih =>
    have begins := first t rfl
    obtain ⟨operator, -, signed⟩ := signed
    have first' : ∀ u ∈ rest.head?, u.beginsOperand → t.expectsOperand := by
      cases rest with
      | nil => exact nofun
      | cons u rest =>
        rintro v hv
        obtain rfl := Option.some.inj hv
        exact (List.isChain_cons_cons.mp separated).1
    obtain ⟨le, eq⟩ := ih signed first' separated.tail
    -- An operand completes the one expected, an operator expects another, and a parenthesis or a
    -- function counts for nothing.
    simp only [Placed, List.countP_cons]
    rcases t.placing_cases with ⟨operand, noOperator, starts, after⟩ |
      ⟨noOperand, isOperator, starts, after⟩ | ⟨noOperand, noOperator, starts, after⟩ |
      ⟨noOperand, noOperator, starts, after⟩
    · obtain rfl : expected = true := begins starts
      simp only [after, complete, operand, noOperator, starts] at le eq ⊢
      exact ⟨by simp at le ⊢; omega, fun h => ⟨trivial, eq (by simp at h ⊢; omega)⟩⟩
    · obtain rfl : expected = false := operator (by simpa using isOperator)
      simp only [after, complete, noOperand, isOperator, starts] at le eq ⊢
      exact ⟨by simp at le ⊢; omega, fun h => ⟨trivial, eq (by simp at h ⊢; omega)⟩⟩
    · obtain rfl : expected = true := begins starts
      simp only [after, complete, noOperand, noOperator, starts] at le eq ⊢
      exact ⟨by simpa using le, fun h => ⟨trivial, eq (by simpa using h)⟩⟩
    · -- A closing parenthesis where an operand is expected would leave one operand too few.
      simp only [after, complete, noOperand, noOperator, starts] at le eq ⊢
      cases expected with
      | true => exact ⟨by simp at le ⊢; omega, fun h => by simp at le h; omega⟩
      | false => exact ⟨by simpa using le, fun h => ⟨rfl, eq (by simpa using h)⟩⟩

/-- In accepted tokens where no operand begins right behind another one, each begins where it is
expected. -/
theorem placed_of_checkArity {ts program : List Token} (signed : Signed true ts)
    (separated : Separated ts) (reordered : toPostfix ts = .ok program)
    (passes : checkArity program = .ok ()) : Placed true ts false := by
  have perm := perm_of_postfixFrom reordered nofun
  have count := countP_of_checkArityFrom passes
  -- Reordering drops only parentheses, so the operands and operators can be counted before it.
  have kept {p : Token → Bool} (hp : ∀ t, p t → t.isParen = false) :
      program.countP p = ts.countP p := by
    rw [perm.countP_eq, List.nil_append, List.countP_filter]
    refine List.countP_congr fun t _ => ?_
    simpa using hp t
  rw [kept fun t => Token.isParen_of_isOperand, kept fun t h => by
    simp [Token.isParen, beq_iff_eq.mp h]] at count
  exact (placed_of_countP signed (fun _ _ _ => rfl) separated).2 count

theorem Placed.separated {expected after : Bool} {ts : List Token} (h : Placed expected ts after) :
    Separated ts := by
  induction ts generalizing expected with
  | nil => exact .nil
  | cons t rest ih =>
    have later := ih h.2
    cases rest with
    | nil => exact .singleton t
    | cons u rest => exact List.isChain_cons_cons.mpr ⟨fun starts => h.2.1.symm.trans starts, later⟩

/-! ## Texts that compile -/

theorem Writes.isTerminal {w : List Char} {t : Token} (h : Writes w t) : t.IsTerminal := by
  cases h with
  | number | constant | var => exact .inl rfl
  | @function _ f named => exact .inr (.inl ⟨f, .inl named, rfl⟩)
  | @sign f op sign => exact .inr (.inl ⟨f, .inr (mem_signs_of_ofSign? sign), rfl⟩)
  | operator op => exact .inr (.inr (.inl ⟨op, rfl⟩))
  | leftParen => exact .inr (.inr (.inr (.inl rfl)))
  | rightParen => exact .inr (.inr (.inr (.inr rfl)))

theorem Spells.isTerminal {cs : List Char} {ts : List Token} (h : Spells cs ts) :
    ∀ t ∈ ts, t.IsTerminal := by
  intro t ht
  obtain ⟨w, writes⟩ := h.exists_writes t ht
  exact writes.isTerminal

/-- The text spells a sentence of the grammar. -/
def SpellsSentence (text : String) : Prop := ∃ ts, Spells text.toList ts ∧ IsSentence ts

/-- **The texts that spell a sentence** are those among the texts that compile in which no operand
begins right behind another one. -/
theorem spellsSentence_iff_compile (text : String) :
    SpellsSentence text ↔
      (∃ f, Formula.compile text = .ok f) ∧ ∃ ts, tokenize text = .ok ts ∧ Separated ts := by
  constructor
  · rintro ⟨ts, spells, t, sentence⟩
    exact ⟨⟨_, compile_of_derives spells sentence⟩, ts, tokenize_of_derives spells sentence,
      sentence.placed.separated⟩
  · rintro ⟨⟨f, compiled⟩, ts, tokens, separated⟩
    obtain ⟨-, -, program⟩ := compile_eq_ok_iff.mp compiled
    obtain ⟨ts', tokens', reordered, passes⟩ := programOf_eq_ok_iff.mp program
    obtain rfl : ts = ts' := Except.ok.inj (tokens.symm.trans tokens')
    obtain ⟨spells, signed⟩ := spells_of_tokensFrom tokens
    have placed := placed_of_checkArity signed separated reordered passes
    exact ⟨ts, spells, isSentence_of_placed spells.isTerminal (balanced_of_postfixFrom reordered)
      placed⟩

/-- The number `3`. -/
def three : Literal := ⟨['3'], [], [], [], []⟩

/-- The tokens of `2 3 +`: behind a number the plus is the operator. -/
theorem tokenize_operator_behind_operands : tokenize "2 3 +" =
    .ok [⟨.number, "2", two.toFloat⟩, ⟨.number, "3", three.toFloat⟩, .ofOperator .add] := by
  refine tokensFrom_of_nextToken (r := [' ', '3', ' ', '+']) rfl rfl ?_
  rw [tokensFrom, if_pos (by decide)]
  refine tokensFrom_of_nextToken (r := [' ', '+']) rfl rfl ?_
  rw [tokensFrom, if_pos (by decide)]
  refine tokensFrom_of_nextToken (r := []) rfl rfl ?_
  rw [tokensFrom]

/-- The text `2 3 +` compiles although it is no sentence: its second operand begins right behind the
first. -/
theorem compile_operator_behind_operands :
    (∃ f, Formula.compile "2 3 +" = .ok f) ∧ ¬ SpellsSentence "2 3 +" := by
  constructor
  · exact ⟨⟨_, _⟩, compile_eq_ok_iff.mpr ⟨rfl, rfl, programOf_eq_ok_iff.mpr
      ⟨_, tokenize_operator_behind_operands, rfl, rfl⟩⟩⟩
  · rintro ⟨ts, spells, t, sentence⟩
    have tokens := tokenize_of_derives spells sentence
    rw [tokenize_operator_behind_operands] at tokens
    obtain rfl := Except.ok.inj tokens
    obtain ⟨-, second, -⟩ := sentence.placed
    cases second

end EquationSolver
