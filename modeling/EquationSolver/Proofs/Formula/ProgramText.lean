import EquationSolver.Proofs.Formula.Compilation
import EquationSolver.Proofs.Formula.Numeral
import EquationSolver.Proofs.Formula.Parentheses
import EquationSolver.Proofs.Formula.Respelling
import Mathlib.Data.List.Nodup

/-!
# The text of a program

A program is shown by the texts of its tokens, with a space between any two. Neither the kinds nor
the values of the tokens are shown, and yet nothing is lost. No text has a space in it, so the texts
are found again between the spaces. A text that begins with a digit or a point is a literal, whose
value is the one that is scanned from it; every other text is one of a few words, and no two tokens
share a word. This holds of the tokens that the scan can find, and the reordering adds none.

## Main definitions

* `Token.words`: the tokens that are no literals

## Main results

* `Token.IsAdmissible.eq_of_text`: a token that a text can have is known by its own text
* `Formula.splitOn_rpn`: the texts of the tokens are the parts of the text of the program
* `Formula.program_eq_of_rpn`: formulas whose programs have one text have one program
-/

namespace EquationSolver

/-- A literal is known by its text. -/
theorem Literal.WellFormed.eq_of_text {l l' : Literal} (h : l.WellFormed) (h' : l'.WellFormed)
    (same : l.text = l'.text) : l = l' := by
  have scanned := h.scan?_text
  rw [same, h'.scan?_text] at scanned
  exact (Prod.mk.inj (Option.some.inj scanned)).1.symm

namespace Token

variable {t u : Token}

/-! ## The words -/

/-- The tokens that are no literals, each with a text of its own. -/
def words : List Token :=
  constants.map (fun constant => ⟨.number, constant.1, constant.2⟩) ++
    (Function.named ++ Function.signs).map ofFunction ++ Operator.all.map ofOperator ++
    [ofVariable, leftParen, rightParen]

/-- A token that a text can have is a word or a literal. -/
theorem IsAdmissible.mem_words_or (h : t.IsAdmissible) :
    t ∈ words ∨ ∃ l : Literal, l.WellFormed ∧ t = ⟨.number, .ofList l.text, l.toFloat⟩ := by
  simp only [words, List.mem_append, List.mem_map]
  cases h with
  | literal l h => exact .inr ⟨l, h, rfl⟩
  | constant h => exact .inl (.inl (.inl (.inl ⟨_, h, rfl⟩)))
  | named h => exact .inl (.inl (.inl (.inr ⟨_, .inl h, rfl⟩)))
  | sign h => exact .inl (.inl (.inl (.inr ⟨_, .inr h, rfl⟩)))
  | operator op => exact .inl (.inl (.inr ⟨op, by cases op <;> decide, rfl⟩))
  | var | leftParen | rightParen => exact .inl (.inr (by simp))

/-- No two words have the same text. -/
theorem eq_of_mem_words (ht : t ∈ words) (hu : u ∈ words) (same : t.text = u.text) : t = u := by
  have distinct : (words.map Token.text).Nodup := by decide
  exact List.inj_on_of_nodup_map distinct ht hu same

/-- No word has a space in it, and none begins as a number does. -/
theorem text_of_mem_words (h : t ∈ words) :
    ' ' ∉ t.text.toList ∧ ∀ c ∈ t.text.toList.head?, ¬ BeginsNumber c := by
  have each : (words.map fun t => t.text.toList).all fun cs =>
      !cs.contains ' ' && cs.head?.all fun c => !isAsciiDigit c && c != '.' := by decide
  simpa [BeginsNumber, Option.all_eq_true] using List.all_eq_true.mp each _ (List.mem_map_of_mem h)

/-! ## All tokens of a text -/

/-- The text of a literal is no word. -/
theorem text_ne_of_mem_words {l : Literal} (h : l.WellFormed) (ht : t ∈ words) :
    t.text ≠ .ofList l.text := by
  intro same
  obtain ⟨c, w, text, begins⟩ := h.first
  refine (text_of_mem_words ht).2 c ?_ begins
  simp [same, text]

/-- A token that a text can have is known by its own text. -/
theorem IsAdmissible.eq_of_text (ht : t.IsAdmissible) (hu : u.IsAdmissible)
    (same : t.text = u.text) : t = u := by
  rcases ht.mem_words_or with ht | ⟨l, hl, rfl⟩ <;> rcases hu.mem_words_or with hu | ⟨k, hk, rfl⟩
  · exact eq_of_mem_words ht hu same
  · exact absurd same (text_ne_of_mem_words hk ht)
  · exact absurd same.symm (text_ne_of_mem_words hl hu)
  · obtain rfl := hl.eq_of_text hk (String.ofList_injective same)
    rfl

/-- No token that a text can have is shown with a space. -/
theorem IsAdmissible.space_notMem (h : t.IsAdmissible) : ' ' ∉ t.text.toList := by
  rcases h.mem_words_or with h | ⟨l, hl, rfl⟩
  · exact (text_of_mem_words h).1
  · rw [String.toList_ofList]
    intro space
    exact absurd (hl.mem_chars space) (by decide)

/-- Rows of tokens with the same texts are the same. -/
theorem eq_of_map_text {ts us : List Token} (ht : ∀ t ∈ ts, t.IsAdmissible)
    (hu : ∀ u ∈ us, u.IsAdmissible) (same : ts.map text = us.map text) : ts = us := by
  induction ts generalizing us with
  | nil => exact (List.map_eq_nil_iff.mp same.symm).symm
  | cons t ts ih =>
    obtain ⟨u, us, rfl, head, tail⟩ := List.map_eq_cons_iff.mp same.symm
    rw [List.forall_mem_cons] at ht hu
    rw [ht.1.eq_of_text hu.1 head.symm, ih ht.2 hu.2 tail.symm]

end Token

namespace Formula

variable {text text' : String} {f f' : Formula}

/-! ## Programs -/

/-- The tokens of a program are tokens of the text. -/
theorem isAdmissible_of_compile (compiled : compile text = .ok f) :
    ∀ t ∈ f.program, t.IsAdmissible := by
  obtain ⟨-, -, program⟩ := compile_eq_ok_iff.mp compiled
  obtain ⟨ts, tokens, reordered, -⟩ := programOf_eq_ok_iff.mp program
  intro t ht
  exact (admissible_of_tokenize tokens).1 t (mem_of_mem_toPostfix reordered ht).1

/-- A program has some token, for it leaves a value. -/
theorem program_ne_nil_of_compile (compiled : compile text = .ok f) : f.program ≠ [] := by
  obtain ⟨-, -, program⟩ := compile_eq_ok_iff.mp compiled
  obtain ⟨-, -, -, passes⟩ := programOf_eq_ok_iff.mp program
  intro none
  rw [none] at passes
  cases passes

/-- Between the spaces of the text of a program stand the texts of its tokens. -/
theorem splitOn_rpn (compiled : compile text = .ok f) :
    f.rpn.toList.splitOn ' ' = f.program.map fun t => t.text.toList := by
  have shown : f.rpn.toList = [' '].intercalate (f.program.map fun t => t.text.toList) := by
    rw [rpn, String.toList_intercalate, List.map_map]
    rfl
  rw [shown]
  refine List.splitOn_intercalate ' ' ?_ ?_
  · rw [List.forall_mem_map]
    intro t ht
    exact (isAdmissible_of_compile compiled t ht).space_notMem
  · rw [ne_eq, List.map_eq_nil_iff]
    exact program_ne_nil_of_compile compiled

/-- **The text of a program determines the formula.** Where two texts compile into programs that are
shown alike, the programs have the same tokens, with their kinds and values, and the formulas have
the same value at every point, or the same error. -/
theorem program_eq_of_rpn (compiled : compile text = .ok f) (compiled' : compile text' = .ok f')
    (shown : f.rpn = f'.rpn) : f.program = f'.program ∧ ∀ x, f.eval x = f'.eval x := by
  have texts : f.program.map Token.text = f'.program.map Token.text := by
    have parts := splitOn_rpn compiled
    rw [shown, splitOn_rpn compiled'] at parts
    have strings := congrArg (List.map String.ofList) parts.symm
    simpa [List.map_map, Function.comp_def] using strings
  have same : f.program = f'.program :=
    Token.eq_of_map_text (isAdmissible_of_compile compiled)
      (isAdmissible_of_compile compiled') texts
  exact ⟨same, fun x => by rw [eval, same, eval]⟩

/-- The program of the square of the sine. -/
def sineSquared : List Token :=
  [.ofVariable, .ofFunction .sin, ⟨.number, "2", two.toFloat⟩, .ofOperator .pow]

/-- Without parentheses a name applies to what stands right behind it. -/
theorem compile_sineSquared : compile "sin x^2" = .ok ⟨"sin x^2", sineSquared⟩ := by
  have tokens : tokenize "sin x^2" = .ok [.ofFunction .sin, .ofVariable, .ofOperator .pow,
      ⟨.number, "2", two.toFloat⟩] := by
    refine tokensFrom_of_nextToken (r := ' ' :: "x^2".toList) rfl rfl ?_
    rw [tokensFrom, if_pos (by decide)]
    refine tokensFrom_of_nextToken (r := "^2".toList) rfl rfl ?_
    refine tokensFrom_of_nextToken (r := "2".toList) rfl rfl ?_
    refine tokensFrom_of_nextToken (r := []) rfl rfl ?_
    rw [tokensFrom]
  exact compile_eq_ok_iff.mpr ⟨rfl, rfl, programOf_eq_ok_iff.mpr ⟨_, tokens, rfl, rfl⟩⟩

theorem compile_sineSquared_parens :
    compile "(SIN(X))^2" = .ok ⟨"(SIN(X))^2", sineSquared⟩ := by
  have tokens : tokenize "(SIN(X))^2" = .ok [.leftParen, .ofFunction .sin, .leftParen, .ofVariable,
      .rightParen, .rightParen, .ofOperator .pow, ⟨.number, "2", two.toFloat⟩] := by
    refine tokensFrom_of_nextToken (r := "SIN(X))^2".toList) rfl rfl ?_
    refine tokensFrom_of_nextToken (r := "(X))^2".toList) rfl rfl ?_
    refine tokensFrom_of_nextToken (r := "X))^2".toList) rfl rfl ?_
    refine tokensFrom_of_nextToken (r := "))^2".toList) rfl rfl ?_
    refine tokensFrom_of_nextToken (r := ")^2".toList) rfl rfl ?_
    refine tokensFrom_of_nextToken (r := "^2".toList) rfl rfl ?_
    refine tokensFrom_of_nextToken (r := "2".toList) rfl rfl ?_
    refine tokensFrom_of_nextToken (r := []) rfl rfl ?_
    rw [tokensFrom]
  exact compile_eq_ok_iff.mpr ⟨rfl, rfl, programOf_eq_ok_iff.mpr ⟨_, tokens, rfl, rfl⟩⟩

/-- The square of the sine is shown as `x sin 2 ^` however it is written. -/
theorem program_eq_of_rpn_sineSquared :
    (⟨"sin x^2", sineSquared⟩ : Formula).rpn = "x sin 2 ^" ∧
      (⟨"(SIN(X))^2", sineSquared⟩ : Formula).rpn = "x sin 2 ^" ∧
      ∀ x, eval ⟨"sin x^2", sineSquared⟩ x = eval ⟨"(SIN(X))^2", sineSquared⟩ x :=
  ⟨by decide, by decide,
    (program_eq_of_rpn compile_sineSquared compile_sineSquared_parens (by decide)).2⟩

end Formula

end EquationSolver
