import EquationSolver.Proofs.Formula.Spelling

/-!
# The scan inverts spelling

Tokens are spelled by writing a word for each of them, in order, with white space between any two.
There is a choice of words, for a name may be written in letters of either case, and of white space;
the tokens themselves must be ones that a text can have, and their signs and operators must stand
where the scan would take them for what they are. Every such spelling is scanned into the tokens
that were spelled. So the tokens of a text stay the same when it is spelled anew.

White space on both sides makes every word a longest one: no literal goes on with it, and no name.
Without it `2` and `e` and `1` would be one literal, and `x` and `2` one unknown name.

## Main definitions

* `Token.IsAdmissible`, `Admissible`: the tokens that a text can have, and the rows of them
* `Spaced`: the spellings with white space between the words

## Main results

* `Writes.isLongestWord`: a word with white space behind it is a longest one
* `tokensFrom_of_spaced`: the scan finds the tokens of a spelling
* `tokenize_spaced`: the rows of tokens that the scan finds are the admissible ones, and it finds
  them in all their spellings
-/

namespace EquationSolver

/-- A token that a text can have. -/
inductive Token.IsAdmissible : Token → Prop
  /-- A number literal, with its value. -/
  | literal (l : Literal) (h : l.WellFormed) : IsAdmissible ⟨.number, .ofList l.text, l.toFloat⟩
  /-- A constant, with its value. -/
  | constant {name : String} {value : Float} (h : (name, value) ∈ Token.constants) :
    IsAdmissible ⟨.number, name, value⟩
  | var : IsAdmissible .ofVariable
  | named {f : Function} (h : f ∈ Function.named) : IsAdmissible (.ofFunction f)
  | sign {f : Function} (h : f ∈ Function.signs) : IsAdmissible (.ofFunction f)
  | operator (op : Operator) : IsAdmissible (.ofOperator op)
  | leftParen : IsAdmissible .leftParen
  | rightParen : IsAdmissible .rightParen

/-- Tokens that a text can have, the signs among them where operands are expected and the operators
where none is. -/
def Admissible (ts : List Token) : Prop := (∀ t ∈ ts, t.IsAdmissible) ∧ Signed true ts

/-- The tokens are written in order, with some white space between any two words. -/
inductive Spaced : List Char → List Token → Prop
  | nil : Spaced [] []
  | last {w : List Char} {t : Token} (writes : Writes w t) : Spaced w [t]
  | cons {w gap cs : List Char} {t u : Token} {ts : List Token} (writes : Writes w t)
    (some : gap ≠ []) (blank : ∀ c ∈ gap, Text.isBlank c) :
    Spaced cs (u :: ts) → Spaced (w ++ gap ++ cs) (t :: u :: ts)

/-! ## Words and tokens -/

theorem Writes.isAdmissible {w : List Char} {t : Token} (h : Writes w t) : t.IsAdmissible := by
  cases h with
  | number l h => exact .literal l h
  | constant h => exact .constant h
  | var => exact .var
  | function h => exact .named h
  | sign h => exact .sign (mem_signs_of_ofSign? h)
  | operator op => exact .operator op
  | leftParen => exact .leftParen
  | rightParen => exact .rightParen

/-- Every token that a text can have is written by some word. -/
theorem Token.IsAdmissible.exists_writes {t : Token} (h : t.IsAdmissible) : ∃ w, Writes w t := by
  cases h with
  | literal l h => exact ⟨l.text, .number l h⟩
  | @constant name value h =>
    refine ⟨name.toList, .constant h ?_⟩
    simp only [Token.constants, List.mem_cons, Prod.mk.injEq, List.not_mem_nil, or_false] at h
    rcases h with ⟨rfl, -⟩ | ⟨rfl, -⟩ <;> rfl
  | var => exact ⟨['x'], .var rfl⟩
  | @named f h =>
    refine ⟨f.text.toList, .function h ?_⟩
    cases f <;> rfl
  | @sign f h =>
    simp only [Function.signs, List.mem_cons, List.not_mem_nil, or_false] at h
    rcases h with rfl | rfl
    · exact ⟨_, .sign (show Function.ofSign? .sub = some .neg from rfl)⟩
    · exact ⟨_, .sign (show Function.ofSign? .add = some .pos from rfl)⟩
  | operator op => exact ⟨[op.symbol], .operator op⟩
  | leftParen => exact ⟨['('], .leftParen⟩
  | rightParen => exact ⟨[')'], .rightParen⟩

/-! ## Words in front of white space -/

theorem isAsciiDigit_of_isDigit {c : Char} (h : c.isDigit) : isAsciiDigit c := by
  simp only [Char.isDigit, Bool.and_eq_true, decide_eq_true_eq, ge_iff_le,
    UInt32.le_iff_toNat_le] at h
  exact isAsciiDigit_iff.mpr h

/-- White space begins no number and belongs to no name. -/
theorem not_begins_of_isBlank {c : Char} (h : Text.isBlank c) :
    ¬ BeginsNumber c ∧ c.isAlphanum = false := by
  have noNumber : ¬ BeginsNumber c := by
    intro begins
    exact absurd (not_isBlank_of_first (.inl begins)) (by simp [h])
  refine ⟨noNumber, ?_⟩
  rw [Char.isAlphanum, Bool.or_eq_false_iff, Bool.eq_false_iff, Bool.eq_false_iff]
  constructor
  · intro alpha
    exact absurd (not_isBlank_of_first (.inr (.inl alpha))) (by simp [h])
  · intro digit
    exact noNumber (.inl (isAsciiDigit_of_isDigit digit))

variable {w rest : List Char} {t : Token}

/-- A literal stops in front of white space, and at the end of a text. -/
theorem Literal.stops_of_isBlank (l : Literal) (edge : ∀ c ∈ rest.head?, Text.isBlank c) :
    l.Stops rest where
  digit c hc := by
    rw [Bool.eq_false_iff]
    intro digit
    exact (not_begins_of_isBlank (edge c hc)).1 (.inl digit)
  point _ _ dot := (not_begins_of_isBlank (edge '.' dot)).1 (.inr rfl)
  mark _ := by
    rcases Literal.scanExponent_cases rest with none | ⟨⟨c, sign, mark, letter, -⟩, -⟩
    · rw [none]
    · -- What begins with the letter of an exponent does not begin with white space.
      have parts := Literal.scanExponent_append rest
      rw [mark, List.cons_append] at parts
      have blank := edge c (by rw [← parts]; rfl)
      rcases letter with rfl | rfl <;> exact absurd blank (by decide)

/-- What a name stands for has letters and digits only, the first of them a letter. -/
theorem exists_cons_of_ofName? {name : String} (h : Token.ofName? name = some t) :
    ∃ c v, name = .ofList (c :: v) ∧ c.isAlpha ∧ ∀ d ∈ v, d.isAlphanum := by
  unfold Token.ofName? at h
  split at h
  · subst name
    exact ⟨'x', [], rfl, rfl, nofun⟩
  · split at h
    · rename_i value found
      obtain ⟨before, after, whole, -⟩ := List.lookup_eq_some_iff.mp found
      have mem : (name, value) ∈ Token.constants := by simp [whole]
      simp only [Token.constants, List.mem_cons, Prod.mk.injEq, List.not_mem_nil, or_false] at mem
      rcases mem with ⟨rfl, -⟩ | ⟨rfl, -⟩
      · exact ⟨'p', ['i'], rfl, rfl, List.forall_mem_singleton.mpr rfl⟩
      · exact ⟨'e', [], rfl, rfl, nofun⟩
    · obtain ⟨f, found, -⟩ := Option.map_eq_some_iff.mp h
      have text : f.text = name := by simpa using List.find?_some found
      subst name
      cases f <;> exact ⟨_, _, rfl, rfl, List.all_eq_true.mp rfl⟩

/-- A name with white space behind it is a longest word. -/
theorem isLongestWord_of_ofName? (name : Token.ofName? (inSmallLetters w) = some t)
    (edge : ∀ c ∈ rest.head?, Text.isBlank c) : IsLongestWord w rest := by
  obtain ⟨c, v, small, alpha, letters⟩ := exists_cons_of_ofName? name
  obtain ⟨c', v', rfl, rfl, rfl⟩ := List.map_eq_cons_iff.mp (String.ofList_injective small)
  have letters' : ∀ d ∈ v', d.isAlphanum := by
    intro d hd
    exact isAlphanum_of_toLower (letters _ (List.mem_map_of_mem hd))
  refine (isLongestWord_name_iff (isAlpha_of_toLower alpha) letters' rest).mpr ?_
  intro d hd
  exact (not_begins_of_isBlank (edge d hd)).2

/-- A word with white space behind it, or nothing, is a longest one. -/
theorem Writes.isLongestWord (h : Writes w t) (edge : ∀ c ∈ rest.head?, Text.isBlank c) :
    IsLongestWord w rest := by
  cases h with
  | number l h =>
    exact (isLongestWord_text_iff h rest).mpr (Literal.scan?_of_stops h (l.stops_of_isBlank edge))
  | constant h hw => exact isLongestWord_of_ofName? (hw ▸ ofName?_of_mem_constants h) edge
  | var hw => exact isLongestWord_of_ofName? (t := .ofVariable) (hw ▸ rfl) edge
  | function h hw => exact isLongestWord_of_ofName? (hw ▸ ofName?_of_mem_named h) edge
  | @sign f op h => exact isLongestWord_symbol (by cases op <;> decide) rest
  | operator op => exact isLongestWord_symbol (by cases op <;> decide) rest
  | leftParen | rightParen => exact isLongestWord_symbol (by decide) rest

/-! ## Spellings -/

/-- The scan skips white space. -/
theorem tokensFrom_append_of_isBlank (expected : Bool) (length : Nat) {gap : List Char}
    (blank : ∀ c ∈ gap, Text.isBlank c) (cs : List Char) :
    tokensFrom expected length (gap ++ cs) = tokensFrom expected length cs := by
  induction gap with
  | nil => rfl
  | cons c gap ih =>
    rw [List.cons_append, tokensFrom, if_pos (blank c List.mem_cons_self)]
    exact ih fun d hd => blank d (List.mem_cons_of_mem c hd)

/-- The scan takes a word that has white space behind it, or nothing, for its token. -/
theorem tokensFrom_of_writes {expected : Bool} {length : Nat} {ts : List Token}
    (writes : Writes w t) (edge : ∀ c ∈ rest.head?, Text.isBlank c)
    (signed : Signed expected (t :: ts))
    (later : tokensFrom t.expectsOperand length rest = .ok ts) :
    tokensFrom expected length (w ++ rest) = .ok (t :: ts) := by
  have longest : IsLongestWord w rest := writes.isLongestWord edge
  obtain ⟨c, v, rfl⟩ := List.exists_cons_of_ne_nil longest.1.ne_nil
  have noPoint : t.kind = .number → rest.head? ≠ some '.' := by
    intro _ dot
    exact absurd (edge '.' dot) (by decide)
  obtain ⟨operator, sign, -⟩ := signed
  have next := nextToken_of_writes length longest writes operator sign noPoint
  exact tokensFrom_of_nextToken longest.1.not_isBlank next later

/-- The scan finds the tokens of a spelling. -/
theorem tokensFrom_of_spaced {cs : List Char} {ts : List Token} (h : Spaced cs ts) (length : Nat)
    {expected : Bool} (signed : Signed expected ts) :
    tokensFrom expected length cs = .ok ts := by
  -- The induction is on the spelling. Behind each word the white space is skipped, and the place
  -- where it ends expects an operand or not by the token before it.
  induction h generalizing expected with
  | nil => rw [tokensFrom]
  | @last w t writes =>
    rw [← List.append_nil w]
    refine tokensFrom_of_writes writes ?_ signed ?_
    · rintro c ⟨⟩
    · rw [tokensFrom]
  | @cons w gap cs t u ts writes some blank _ ih =>
    rw [List.append_assoc]
    refine tokensFrom_of_writes writes ?_ signed ?_
    · obtain ⟨b, gap', rfl⟩ := List.exists_cons_of_ne_nil some
      rintro c ⟨⟩
      exact blank b List.mem_cons_self
    · rw [tokensFrom_append_of_isBlank _ _ blank]
      exact ih signed.2.2

/-- Tokens that a text can have are spelled by some text. -/
theorem exists_spaced {ts : List Token} (h : ∀ t ∈ ts, t.IsAdmissible) : ∃ cs, Spaced cs ts := by
  induction ts with
  | nil => exact ⟨[], .nil⟩
  | cons t ts ih =>
    obtain ⟨w, writes⟩ := (h t List.mem_cons_self).exists_writes
    cases ts with
    | nil => exact ⟨w, .last writes⟩
    | cons u ts =>
      obtain ⟨cs, spaced⟩ := ih fun v hv => h v (List.mem_cons_of_mem t hv)
      have blank : ∀ c ∈ [' '], Text.isBlank c := List.forall_mem_singleton.mpr rfl
      exact ⟨w ++ [' '] ++ cs, .cons writes (by simp) blank spaced⟩

/-- What the scan finds is admissible. -/
theorem admissible_of_tokenize {text : String} {ts : List Token} (h : tokenize text = .ok ts) :
    Admissible ts := by
  obtain ⟨spells, signed⟩ := spells_of_tokensFrom h
  refine ⟨?_, signed⟩
  intro t ht
  obtain ⟨w, writes⟩ := spells.exists_writes t ht
  exact writes.isAdmissible

/-- **The scan inverts spelling.** What it finds in a text is admissible; an admissible row of
tokens can be spelled, and is found in every text that spells it; and so a text that spells the
tokens of another one has the same tokens. -/
theorem tokenize_spaced :
    (∀ text ts, tokenize text = .ok ts → Admissible ts) ∧
      (∀ ts, Admissible ts → (∃ text : String, Spaced text.toList ts) ∧
        ∀ text : String, Spaced text.toList ts → tokenize text = .ok ts) ∧
      ∀ text ts, tokenize text = .ok ts →
        ∀ text' : String, Spaced text'.toList ts → tokenize text' = .ok ts := by
  have found {ts : List Token} (admissible : Admissible ts) (text : String)
      (spaced : Spaced text.toList ts) : tokenize text = .ok ts :=
    tokensFrom_of_spaced spaced text.length admissible.2
  refine ⟨?_, ?_, ?_⟩
  · intro text ts scanned
    exact admissible_of_tokenize scanned
  · intro ts admissible
    obtain ⟨cs, spaced⟩ := exists_spaced admissible.1
    exact ⟨⟨.ofList cs, by rwa [String.toList_ofList]⟩, found admissible⟩
  · intro text ts scanned
    exact found (admissible_of_tokenize scanned)

/-- The power of `x` to the negative constant is found however wide the gaps are, and with its names
in capital letters. Behind the operator the minus is the sign. -/
theorem tokenize_spaced_negativePower :
    tokenize "X ^\t- PI" = .ok [.ofVariable, .ofOperator .pow, .ofFunction .neg,
      ⟨.number, "pi", 3.141592653589793⟩] := by
  have admissible : Admissible [.ofVariable, .ofOperator .pow, .ofFunction .neg,
      ⟨.number, "pi", 3.141592653589793⟩] := by
    refine ⟨?_, nofun, nofun, fun _ => rfl, nofun, nofun, fun _ _ _ => rfl, nofun, nofun, trivial⟩
    simp only [List.forall_mem_cons]
    exact ⟨.var, .operator .pow, .sign (by decide), .constant (by simp [Token.constants]), nofun⟩
  have gap (c : Char) (h : Text.isBlank c) : ∀ d ∈ [c], Text.isBlank d :=
    List.forall_mem_singleton.mpr h
  have spaced : Spaced (['X'] ++ [' '] ++ (['^'] ++ ['\t'] ++ (['-'] ++ [' '] ++ ['P', 'I'])))
      [.ofVariable, .ofOperator .pow, .ofFunction .neg, ⟨.number, "pi", 3.141592653589793⟩] := by
    refine .cons (.var rfl) (by simp) (gap ' ' rfl) ?_
    refine .cons (.operator .pow) (by simp) (gap '\t' rfl) ?_
    have sign : Function.ofSign? .sub = some .neg := rfl
    refine .cons (.sign sign) (by simp) (gap ' ' rfl) ?_
    exact .last (.constant (by simp [Token.constants]) rfl)
  exact (tokenize_spaced.2.1 _ admissible).2 "X ^\t- PI" spaced

end EquationSolver
