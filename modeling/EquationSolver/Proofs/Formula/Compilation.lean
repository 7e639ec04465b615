import EquationSolver.Formula.Compile
import EquationSolver.Proofs.Formula.ShuntingYard
import EquationSolver.Proofs.Formula.Spelling

/-!
# Compiling a sentence

A text that spells a sentence of the grammar compiles, and its program is the postorder of the
syntax tree. The text has no other tokens that form a sentence and no other tree.

## Main results

* `tokenize_of_derives`: the tokens of a text that spells a sentence
* `compile_sentence`: its program
-/

namespace EquationSolver

variable {text : String} {ts : List Token} {t : Tree}

/-- The tokens of a text that spells a sentence are those of the sentence. -/
theorem tokenize_of_derives (spells : Spells text.toList ts) (sentence : Derives .expr ts t) :
    tokenize text = .ok ts :=
  tokensFrom_of_spells spells text.length sentence.placed

/-- A text that spells some tokens is not blank. -/
theorem Spells.exists_not_isBlank {cs : List Char} (h : Spells cs ts) (some : ts ≠ []) :
    ∃ c ∈ cs, Text.isBlank c = false := by
  induction h with
  | nil => exact absurd rfl some
  | blank _ _ ih =>
    obtain ⟨c, hc, visible⟩ := ih some
    exact ⟨c, List.mem_cons_of_mem _ hc, visible⟩
  | word longest _ _ _ =>
    obtain ⟨c, v, rfl⟩ := List.exists_cons_of_ne_nil longest.1.ne_nil
    exact ⟨c, by simp, longest.1.not_isBlank⟩

theorem Derives.ne_nil (h : Derives .expr ts t) : ts ≠ [] := by
  rintro rfl
  cases h.placed

/-- A sentence has one syntax tree. -/
theorem Derives.tree_unique {t' : Tree} (h : Derives .expr ts t) (h' : Derives .expr ts t') :
    t' = t := by
  have same := (toPostfix_of_derives h').symm.trans (toPostfix_of_derives h)
  exact Tree.postorder_inj (Except.ok.inj same)

/-- The three passes of the compiler. -/
theorem programOf_eq_ok_iff {program : List Token} :
    Formula.programOf text = .ok program ↔
      ∃ ts, tokenize text = .ok ts ∧ toPostfix ts = .ok program ∧ checkArity program = .ok () := by
  unfold Formula.programOf
  rcases tokenize text with e | ts
  · simp [bind, Except.bind]
  · rcases reordered : toPostfix ts with e | program'
    · simp [bind, Except.bind, reordered]
    · rcases passes : checkArity program' with e | _
      · simp only [bind, Except.bind, reordered, passes]
        constructor
        · intro h
          cases h
        · rintro ⟨ts', tokens, h, passes'⟩
          obtain rfl := Except.ok.inj tokens
          cases reordered.symm.trans h
          cases passes.symm.trans passes'
      · simp only [bind, Except.bind, reordered, passes, pure, Except.pure]
        constructor
        · intro h
          obtain rfl := Except.ok.inj h
          exact ⟨ts, rfl, reordered, passes⟩
        · rintro ⟨ts', tokens, h, -⟩
          obtain rfl := Except.ok.inj tokens
          exact reordered.symm.trans h

/-- A text compiles if it is not blank and passes. -/
theorem compile_eq_ok_iff {f : Formula} :
    Formula.compile text = .ok f ↔
      Text.isBlankText text = false ∧ f.source = text ∧ Formula.programOf text = .ok f.program := by
  unfold Formula.compile
  split
  · rename_i blank
    simp [blank]
  · rename_i visible
    rcases Formula.programOf text with e | program
    · simp [Except.map]
    · obtain ⟨source, program'⟩ := f
      simp [Except.map, visible, eq_comm]

/-- The program of a text that spells a sentence is the postorder of the tree. -/
theorem compile_of_derives (spells : Spells text.toList ts) (sentence : Derives .expr ts t) :
    Formula.compile text = .ok ⟨text, t.postorder⟩ := by
  obtain ⟨c, hc, visible⟩ := spells.exists_not_isBlank sentence.ne_nil
  have notBlank : Text.isBlankText text = false := by
    simpa [Text.isBlankText] using ⟨c, hc, visible⟩
  refine compile_eq_ok_iff.mpr ⟨notBlank, rfl, programOf_eq_ok_iff.mpr ⟨ts, ?_, ?_, ?_⟩⟩
  · exact tokenize_of_derives spells sentence
  · exact toPostfix_of_derives sentence
  · exact checkArity_postorder t

/-- **A text that spells a sentence** compiles into the postorder of the syntax tree. The text
spells no other sentence, and there is no other tree. -/
theorem compile_sentence (spells : Spells text.toList ts) (sentence : Derives .expr ts t) :
    Formula.compile text = .ok ⟨text, t.postorder⟩ ∧
      ∀ ts' t', Spells text.toList ts' → Derives .expr ts' t' → ts' = ts ∧ t' = t := by
  refine ⟨compile_of_derives spells sentence, ?_⟩
  intro ts' t' spells' sentence'
  -- The scan finds one row of tokens, and a row of tokens has one tree.
  obtain rfl : ts' = ts := Except.ok.inj
    ((tokenize_of_derives spells' sentence').symm.trans (tokenize_of_derives spells sentence))
  exact ⟨rfl, sentence.tree_unique sentence'⟩

/-- The number `2`. -/
def two : Literal := ⟨['2'], [], [], [], []⟩

theorem two_wellFormed : two.WellFormed where
  whole c hc := by
    obtain rfl := List.mem_singleton.mp hc
    rfl
  fraction := nofun
  digits := .inl nofun
  point := .inr ⟨rfl, rfl⟩
  scale := nofun
  mark := .inr ⟨rfl, rfl⟩

/-- In `Sin -x^2` the sine applies to all of `-x^2`, and the sign to the power. -/
theorem compile_sentence_sin_neg_power :
    Spells "Sin -x^2".toList [.ofFunction .sin, .ofFunction .neg, .ofVariable, .ofOperator .pow,
        ⟨.number, "2", two.toFloat⟩] ∧
      Formula.compile "Sin -x^2" = .ok ⟨"Sin -x^2",
        [.ofVariable, ⟨.number, "2", two.toFloat⟩, .ofOperator .pow, .ofFunction .neg,
          .ofFunction .sin]⟩ := by
  have sin : IsLongestWord ['S', 'i', 'n'] [' ', '-', 'x', '^', '2'] :=
    (isLongestWord_name_iff rfl (List.all_eq_true.mp rfl) _).mpr (by simp)
  have x : IsLongestWord ['x'] ['^', '2'] :=
    (isLongestWord_name_iff rfl (by simp) _).mpr (by simp)
  have number : IsLongestWord two.text [] := (isLongestWord_text_iff two_wellFormed _).mpr rfl
  have spells : Spells "Sin -x^2".toList [.ofFunction .sin, .ofFunction .neg, .ofVariable,
      .ofOperator .pow, ⟨.number, "2", two.toFloat⟩] :=
    .word sin (.function (by decide) rfl) <| .blank rfl <|
    .word (isLongestWord_symbol (by decide) ['x', '^', '2']) (@Writes.sign .neg .sub rfl) <|
    .word x (.var rfl) <| .word (isLongestWord_symbol (by decide) ['2']) (.operator .pow) <|
    .word number (.number two two_wellFormed) .nil
  have power : Derives .unary [.ofVariable, .ofOperator .pow, ⟨.number, "2", two.toFloat⟩]
      (.binary .pow (.operand .ofVariable rfl) (.operand ⟨.number, "2", two.toFloat⟩ rfl)) :=
    .ofPower (.power (.operand _ rfl) (.ofPower (.ofPrim (.operand _ rfl))))
  have sentence := Derives.ofTerm <| .ofUnary <| .ofPower <| .ofSignedCall <|
    .callSign .sin .neg (by decide) (by decide) power
  exact ⟨spells, (compile_sentence spells sentence).1⟩

end EquationSolver
