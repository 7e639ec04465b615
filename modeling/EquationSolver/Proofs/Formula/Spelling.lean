import EquationSolver.Formula.Scan
import EquationSolver.Proofs.Formula.Grammar
import EquationSolver.Proofs.Formula.Literal

/-!
# The spelling of tokens

A text is cut into words by taking the longest word at its start: a number literal, a name or a
single symbol. White space between words is skipped, and each word writes a token. A plus or minus
writes an operator as well as a sign, so the words alone do not say which tokens are meant; the scan
settles it by what stands in front.

## Main definitions

* `IsWord`, `IsLongestWord`: the words, and a word that is the longest at the start of a text
* `Writes`, `Spells`: the tokens that a word writes, and those that a text spells
* `Signed`: signs stand where operands are expected, and operators where none is

## Main results

* `tokensFrom_of_spells`: the scan finds the tokens of a text in which operands begin exactly where
  they are expected
* `spells_of_tokensFrom`: the tokens that the scan finds are spelled by the text
-/

namespace EquationSolver

/-- The characters that are words of their own. -/
def symbols : List Char := ['(', ')', '+', '-', '*', '/', '^']

/-- A word of a text: a number literal, a name or a symbol. -/
inductive IsWord : List Char → Prop
  | number (l : Literal) (h : l.WellFormed) : IsWord l.text
  | name (c : Char) (w : List Char) (hc : c.isAlpha) (hw : ∀ d ∈ w, d.isAlphanum) : IsWord (c :: w)
  | symbol (c : Char) (h : c ∈ symbols) : IsWord [c]

/-- The word is the longest one at the start of a text that goes on with `rest`. -/
def IsLongestWord (w rest : List Char) : Prop :=
  IsWord w ∧ ∀ w', IsWord w' → w' <+: w ++ rest → w'.length ≤ w.length

/-- A word in small letters. -/
def inSmallLetters (w : List Char) : String := .ofList (w.map Char.toLower)

/-- The tokens that a word can write. -/
inductive Writes : List Char → Token → Prop
  | number (l : Literal) (h : l.WellFormed) : Writes l.text ⟨.number, .ofList l.text, l.toFloat⟩
  | constant {w : List Char} {name : String} {value : Float} (h : (name, value) ∈ Token.constants)
    (hw : inSmallLetters w = name) : Writes w ⟨.number, name, value⟩
  | var {w : List Char} (hw : inSmallLetters w = "x") : Writes w .ofVariable
  | function {w : List Char} {f : Function} (h : f ∈ Function.named)
    (hw : inSmallLetters w = f.text) : Writes w (.ofFunction f)
  | sign {f : Function} {op : Operator} (h : Function.ofSign? op = some f) :
    Writes [op.symbol] (.ofFunction f)
  | operator (op : Operator) : Writes [op.symbol] (.ofOperator op)
  | leftParen : Writes ['('] .leftParen
  | rightParen : Writes [')'] .rightParen

/-- The tokens that a text spells, cut into longest words from the left. -/
inductive Spells : List Char → List Token → Prop
  | nil : Spells [] []
  | blank {c cs ts} (h : Text.isBlank c) : Spells cs ts → Spells (c :: cs) ts
  | word {w rest t ts} (longest : IsLongestWord w rest) (writes : Writes w t) :
    Spells rest ts → Spells (w ++ rest) (t :: ts)

/-! ## Classes of characters -/

theorem isAsciiDigit_iff {c : Char} : isAsciiDigit c ↔ 48 ≤ c.toNat ∧ c.toNat ≤ 57 := by
  simp only [isAsciiDigit, Bool.and_eq_true, decide_eq_true_eq, Char.le_def, UInt32.le_iff_toNat_le]
  rfl

theorem isAlpha_iff {c : Char} :
    c.isAlpha ↔ 65 ≤ c.toNat ∧ c.toNat ≤ 90 ∨ 97 ≤ c.toNat ∧ c.toNat ≤ 122 := by
  change (decide ('A'.val ≤ c.val ∧ c.val ≤ 'Z'.val) ||
    (decide ('a'.val ≤ c.val) && decide (c.val ≤ 'z'.val))) = true ↔ _
  simp only [Bool.or_eq_true, Bool.and_eq_true, decide_eq_true_eq, UInt32.le_iff_toNat_le]
  rfl

/-- Only letters have small letters other than themselves. -/
theorem isAlpha_or_toLower_eq (c : Char) : c.isAlpha ∨ c.toLower = c := by
  unfold Char.toLower
  split
  · rename_i upper
    refine .inl (isAlpha_iff.mpr (.inl ⟨?_, ?_⟩))
    · exact UInt32.le_iff_toNat_le.mp upper.1
    · exact UInt32.le_iff_toNat_le.mp upper.2
  · exact .inr rfl

theorem isAlpha_of_toLower {c : Char} (h : c.toLower.isAlpha) : c.isAlpha := by
  rcases isAlpha_or_toLower_eq c with alpha | same
  · exact alpha
  · rwa [same] at h

theorem isAlphanum_of_toLower {c : Char} (h : c.toLower.isAlphanum) : c.isAlphanum := by
  rcases isAlpha_or_toLower_eq c with alpha | same
  · rw [Char.isAlphanum, alpha, Bool.true_or]
  · rwa [same] at h

/-- The characters that can begin a number literal. -/
def BeginsNumber (c : Char) : Prop := isAsciiDigit c ∨ c = '.'

theorem BeginsNumber.not_isAlpha {c : Char} (h : BeginsNumber c) : ¬ c.isAlpha := by
  rcases h with h | rfl
  · rw [isAsciiDigit_iff] at h
    rw [isAlpha_iff]
    omega
  · decide

theorem not_isAlpha_of_mem_symbols {c : Char} (h : c ∈ symbols) : ¬ c.isAlpha := by
  have each : symbols.all (!·.isAlpha) := by decide
  simpa using List.all_eq_true.mp each c h

theorem not_beginsNumber_of_mem_symbols {c : Char} (h : c ∈ symbols) : ¬ BeginsNumber c := by
  have each : symbols.all fun c => !isAsciiDigit c && c != '.' := by decide
  simpa [BeginsNumber] using List.all_eq_true.mp each c h

/-- No character of a word that begins one is white space. -/
theorem not_isBlank_of_first {c : Char} (h : BeginsNumber c ∨ c.isAlpha ∨ c ∈ symbols) :
    Text.isBlank c = false := by
  -- All of these characters lie in two ranges that hold no white space.
  have code : (40 ≤ c.toNat ∧ c.toNat ≤ 57) ∨ (65 ≤ c.toNat ∧ c.toNat ≤ 122) := by
    rcases h with (h | rfl) | h | h
    · rw [isAsciiDigit_iff] at h
      omega
    · decide
    · rw [isAlpha_iff] at h
      omega
    · have each : symbols.all fun c => 40 ≤ c.toNat && c.toNat ≤ 57 || c.toNat == 94 := by decide
      have code := List.all_eq_true.mp each c h
      simp only [Bool.or_eq_true, Bool.and_eq_true, decide_eq_true_eq, beq_iff_eq] at code
      omega
  simp only [Text.isBlank, Text.blankRanges, List.any_cons, List.any_nil, Bool.or_false,
    Bool.or_eq_false_iff, Bool.and_eq_false_iff, decide_eq_false_iff_not]
  omega

theorem Literal.WellFormed.first {l : Literal} (h : l.WellFormed) :
    ∃ c w, l.text = c :: w ∧ BeginsNumber c := by
  cases whole : l.whole with
  | cons c w =>
    refine ⟨c, w ++ l.point ++ l.fraction ++ l.mark ++ l.scale, by simp [Literal.text, whole], ?_⟩
    exact .inl (h.whole c (by simp [whole]))
  | nil =>
    have fraction : l.fraction ≠ [] := h.digits.resolve_left (by simp [whole])
    have point : l.point = ['.'] := h.point.resolve_right fun h => fraction h.2
    exact ⟨'.', l.fraction ++ l.mark ++ l.scale, by simp [Literal.text, whole, point], .inr rfl⟩

/-- A word is a literal, a name or a symbol by its first character. -/
theorem IsWord.first {c : Char} {w : List Char} (h : IsWord (c :: w)) :
    BeginsNumber c ∧ (∃ l : Literal, l.WellFormed ∧ l.text = c :: w) ∨
      c.isAlpha ∧ (∀ d ∈ w, d.isAlphanum) ∨ c ∈ symbols ∧ w = [] := by
  generalize word : c :: w = v at h
  cases h with
  | number l hl =>
    obtain ⟨c', w', text, begins⟩ := hl.first
    obtain ⟨rfl, rfl⟩ := List.cons_eq_cons.mp (word.trans text)
    exact .inl ⟨begins, l, hl, rfl⟩
  | name c' w' hc hw =>
    obtain ⟨rfl, rfl⟩ := List.cons_eq_cons.mp word
    exact .inr (.inl ⟨hc, hw⟩)
  | symbol c' hc =>
    obtain ⟨rfl, rfl⟩ := List.cons_eq_cons.mp word
    exact .inr (.inr ⟨hc, rfl⟩)

theorem IsWord.ne_nil {w : List Char} (h : IsWord w) : w ≠ [] := by
  cases h with
  | number l hl =>
    obtain ⟨c, w, text, -⟩ := hl.first
    simp [text]
  | name | symbol => simp

/-! ## Longest words -/

/-- The longest number literal is the one that is scanned. -/
theorem isLongestWord_text_iff {l : Literal} (h : l.WellFormed) (rest : List Char) :
    IsLongestWord l.text rest ↔ Literal.scan? (l.text ++ rest) = some (l, rest) := by
  constructor
  · intro longest
    apply Literal.scan?_of_longest h
    intro l' h'
    exact longest.2 _ (.number l' h')
  · intro scanned
    refine ⟨.number l h, ?_⟩
    intro w word start
    obtain ⟨c, v, text, begins⟩ := h.first
    cases w with
    | nil => simp
    | cons d w =>
      -- Words that begin with the same character are of the same kind.
      obtain rfl : d = c := by
        simp only [text, List.cons_append] at start
        exact (List.cons_prefix_cons.mp start).1
      rcases word.first with ⟨-, l', h', literal⟩ | ⟨alpha, -⟩ | ⟨symbol, -⟩
      · rw [← literal] at start ⊢
        exact Literal.length_le_of_scan? scanned h' start
      · exact absurd alpha begins.not_isAlpha
      · exact absurd begins (not_beginsNumber_of_mem_symbols symbol)

/-- The longest name ends where a character follows that is no letter and no digit. -/
theorem isLongestWord_name_iff {c : Char} {w : List Char} (hc : c.isAlpha)
    (hw : ∀ d ∈ w, d.isAlphanum) (rest : List Char) :
    IsLongestWord (c :: w) rest ↔ ∀ d ∈ rest.head?, d.isAlphanum = false := by
  constructor
  · intro longest d hd
    rw [Bool.eq_false_iff]
    intro goes
    obtain ⟨r, rfl⟩ := List.head?_eq_some_iff.mp hd
    -- The name would go on with the letter or digit behind it.
    have longer : IsWord (c :: (w ++ [d])) := by
      refine .name c _ hc ?_
      rw [List.forall_mem_append, List.forall_mem_singleton]
      exact ⟨hw, goes⟩
    have bound := longest.2 _ longer ⟨r, by simp⟩
    simp only [List.length_cons, List.length_append, List.length_nil] at bound
    omega
  · intro stops
    refine ⟨.name c w hc hw, ?_⟩
    intro v word start
    cases v with
    | nil => simp
    | cons e v =>
      obtain ⟨rfl, start⟩ := List.cons_prefix_cons.mp start
      rcases word.first with ⟨begins, -⟩ | ⟨-, hv⟩ | ⟨symbol, -⟩
      · exact absurd hc begins.not_isAlpha
      · obtain ⟨s, hs⟩ := start
        have letters := congrArg (List.takeWhile Char.isAlphanum) (List.cons_eq_cons.mp hs).2
        rw [List.append_eq, List.append_eq, List.takeWhile_append_of_pos hv,
          (Literal.takeWhile_append_eq hw stops).1] at letters
        simp [← letters]
      · exact absurd hc (not_isAlpha_of_mem_symbols symbol)

/-- A symbol is a longest word whatever follows. -/
theorem isLongestWord_symbol {c : Char} (h : c ∈ symbols) (rest : List Char) :
    IsLongestWord [c] rest := by
  refine ⟨.symbol c h, ?_⟩
  intro v word start
  cases v with
  | nil => simp
  | cons e v =>
    obtain ⟨rfl, -⟩ := List.cons_prefix_cons.mp start
    rcases word.first with ⟨begins, -⟩ | ⟨alpha, -⟩ | ⟨-, rfl⟩
    · exact absurd begins (not_beginsNumber_of_mem_symbols h)
    · exact absurd alpha (not_isAlpha_of_mem_symbols h)
    · exact Nat.le_refl 1

/-! ## One token -/

theorem ofName?_of_mem_constants {name : String} {value : Float}
    (h : (name, value) ∈ Token.constants) : Token.ofName? name = some ⟨.number, name, value⟩ := by
  simp only [Token.constants, List.mem_cons, Prod.mk.injEq, List.not_mem_nil, or_false] at h
  rcases h with ⟨rfl, rfl⟩ | ⟨rfl, rfl⟩ <;> rfl

theorem ofName?_of_mem_named {f : Function} (h : f ∈ Function.named) :
    Token.ofName? f.text = some (.ofFunction f) := by
  simp only [Function.named, List.mem_cons, List.not_mem_nil, or_false] at h
  rcases h with rfl | rfl | rfl | rfl | rfl | rfl | rfl <;> rfl

/-- What a name in small letters stands for is written by it, and it is no operator and no sign. -/
theorem writes_of_ofName? {w : List Char} {t : Token}
    (h : Token.ofName? (inSmallLetters w) = some t) :
    Writes w t ∧ t.kind ≠ .operator ∧ ∀ f ∈ Function.signs, t ≠ .ofFunction f := by
  unfold Token.ofName? at h
  split at h
  · obtain rfl := Option.some.inj h
    exact ⟨.var ‹_›, nofun, nofun⟩
  · split at h
    · rename_i value found
      obtain rfl := Option.some.inj h
      obtain ⟨before, after, whole, -⟩ := List.lookup_eq_some_iff.mp found
      exact ⟨.constant (by simp [whole]) rfl, nofun, nofun⟩
    · obtain ⟨f, found, rfl⟩ := Option.map_eq_some_iff.mp h
      have named : f ∈ Function.named := List.mem_of_find?_eq_some found
      refine ⟨.function named (by simpa [eq_comm] using List.find?_some found), nofun, ?_⟩
      intro g sign same
      -- A sign and a function that has a name differ in strength.
      have strength := congrArg Token.precedence same
      rw [Token.precedence_of_mem_named named, Token.precedence_of_mem_signs sign] at strength
      cases strength

theorem mem_symbols_of_ofSymbol? {c : Char} {op : Operator} (h : Operator.ofSymbol? c = some op) :
    c ∈ symbols ∧ op.symbol = c := by
  have symbol : op.symbol = c := by simpa using List.find?_some h
  subst symbol
  exact ⟨by cases op <;> decide, rfl⟩

theorem writes_of_nextNumber {length : Nat} {cs rest : List Char} {t : Token}
    (h : nextNumber length cs = .ok (t, rest)) :
    ∃ w, cs = w ++ rest ∧ IsLongestWord w rest ∧ Writes w t ∧ t.kind = .number := by
  unfold nextNumber at h
  split at h
  · cases h
  · rename_i l _ scanned
    split at h
    · cases h
    · cases h
      have wellFormed := Literal.wellFormed_of_scan? scanned
      have parts := Literal.scan?_text scanned
      exact ⟨l.text, parts.symm, (isLongestWord_text_iff wellFormed _).mpr (parts ▸ scanned),
        .number l wellFormed, rfl⟩

theorem writes_of_nextName {c : Char} {rest rest' : List Char} {t : Token} (hc : c.isAlpha)
    (h : nextName c rest = .ok (t, rest')) :
    ∃ w, c :: rest = w ++ rest' ∧ IsLongestWord w rest' ∧ Writes w t ∧ t.kind ≠ .operator ∧
      ∀ f ∈ Function.signs, t ≠ .ofFunction f := by
  unfold nextName at h
  dsimp only at h
  split at h
  · rename_i found
    cases h
    have letters : ∀ d ∈ rest.takeWhile Char.isAlphanum, d.isAlphanum := fun _ =>
      List.mem_takeWhile_imp
    refine ⟨_, by simp, (isLongestWord_name_iff hc letters _).mpr fun d hd => ?_,
      writes_of_ofName? found⟩
    have stop := List.head?_dropWhile_not Char.isAlphanum rest
    rw [hd] at stop
    simpa using stop
  · cases h

/-- A token that the scan finds is written by the longest word of the text. It is an operator only
where no operand is expected, and a sign only where one is. -/
theorem writes_of_nextToken {expected : Bool} {length : Nat} {c : Char} {rest rest' : List Char}
    {t : Token} (h : nextToken expected length c rest = .ok (t, rest')) :
    ∃ w, c :: rest = w ++ rest' ∧ IsLongestWord w rest' ∧ Writes w t ∧
      (t.kind = .operator → expected = false) ∧
      (∀ f ∈ Function.signs, t = .ofFunction f → expected = true) := by
  unfold nextToken at h
  split at h
  · obtain ⟨w, text, longest, writes, kind⟩ := writes_of_nextNumber h
    refine ⟨w, text, longest, writes, by simp [kind], ?_⟩
    intro f _ same
    rw [same] at kind
    cases kind
  · split at h
    · rename_i alpha
      obtain ⟨w, text, longest, writes, operator, sign⟩ := writes_of_nextName alpha h
      refine ⟨w, text, longest, writes, ?_, ?_⟩
      · intro h
        exact absurd h operator
      · intro f hf h
        exact absurd h (sign f hf)
    · split at h
      · rename_i paren
        cases h
        subst paren
        exact ⟨['('], rfl, isLongestWord_symbol (by decide) _, .leftParen, nofun, nofun⟩
      · split at h
        · rename_i paren
          cases h
          subst paren
          exact ⟨[')'], rfl, isLongestWord_symbol (by decide) _, .rightParen, nofun, nofun⟩
        · split at h
          · rename_i op symbol
            obtain ⟨mem, rfl⟩ := mem_symbols_of_ofSymbol? symbol
            split at h
            · -- Where an operand is expected the operator is a sign, and elsewhere it is itself.
              rename_i written
              cases h
              refine ⟨[op.symbol], rfl, isLongestWord_symbol mem _, ?_⟩
              unfold operatorToken? at written
              split at written
              · rename_i expected
                obtain ⟨f, sign, rfl⟩ := Option.map_eq_some_iff.mp written
                exact ⟨.sign sign, nofun, fun _ _ _ => expected⟩
              · rename_i expected
                cases written
                exact ⟨.operator op, fun _ => Bool.eq_false_iff.mpr expected, nofun⟩
            · cases h
          · cases h

/-- A word in small letters that begins with a letter is no literal and no symbol. -/
theorem isAlpha_of_inSmallLetters {c d : Char} {w v : List Char} (hd : d.isAlpha)
    (h : inSmallLetters (c :: w) = .ofList (d :: v)) : c.isAlpha := by
  have first := congrArg (·.toList.head?) h
  simp only [inSmallLetters, String.toList_ofList, List.map_cons, List.head?_cons,
    Option.some.injEq] at first
  exact isAlpha_of_toLower (first ▸ hd)

theorem nextToken_of_name {expected : Bool} {length : Nat} {c : Char} {w rest : List Char}
    {t : Token} (hc : c.isAlpha) (longest : IsLongestWord (c :: w) rest)
    (name : Token.ofName? (inSmallLetters (c :: w)) = some t) :
    nextToken expected length c (w ++ rest) = .ok (t, rest) := by
  have noNumber : ¬ BeginsNumber c := fun h => h.not_isAlpha hc
  have letters : ∀ d ∈ w, d.isAlphanum := by
    rcases longest.1.first with ⟨begins, -⟩ | ⟨-, hw⟩ | ⟨-, rfl⟩
    · exact absurd begins noNumber
    · exact hw
    · exact nofun
  obtain ⟨take, drop⟩ := Literal.takeWhile_append_eq letters
    ((isLongestWord_name_iff hc letters rest).mp longest)
  have found : nextName c (w ++ rest) = .ok (t, rest) := by
    simp only [inSmallLetters] at name
    simp only [nextName, take, drop, name]
  simp only [BeginsNumber, not_or] at noNumber
  simp [nextToken, noNumber, hc, found]

/-- An operator is scanned as what it is where it stands. -/
theorem nextToken_symbol (expected : Bool) (length : Nat) (op : Operator) (rest : List Char)
    {t : Token} (h : operatorToken? expected op = some t) :
    nextToken expected length op.symbol rest = .ok (t, rest) := by
  have noNumber : (isAsciiDigit op.symbol || op.symbol = '.') = false := by cases op <;> decide
  have noName : op.symbol.isAlpha = false := by cases op <;> decide
  have noParen : op.symbol ≠ '(' ∧ op.symbol ≠ ')' := by cases op <;> decide
  simp [nextToken, noNumber, noName, noParen, Operator.ofSymbol?_symbol, h]

theorem mem_signs_of_ofSign? {op : Operator} {f : Function} (h : Function.ofSign? op = some f) :
    f ∈ Function.signs := by
  cases op <;> simp [Function.ofSign?] at h <;> subst h <;> decide

/-- The token that the longest word writes is scanned, where it may stand. Behind a number no point
may follow. -/
theorem nextToken_of_writes {expected : Bool} (length : Nat) {c : Char} {w rest : List Char}
    {t : Token} (longest : IsLongestWord (c :: w) rest) (writes : Writes (c :: w) t)
    (operator : t.kind = .operator → expected = false)
    (sign : ∀ f ∈ Function.signs, t = .ofFunction f → expected = true)
    (noPoint : t.kind = .number → rest.head? ≠ some '.') :
    nextToken expected length c (w ++ rest) = .ok (t, rest) := by
  generalize word : c :: w = v at writes
  cases writes with
  | number l h =>
    obtain ⟨d, v, text, begins⟩ := h.first
    obtain ⟨rfl, rfl⟩ := List.cons_eq_cons.mp (word.trans text)
    rw [word] at longest
    have scanned := (isLongestWord_text_iff h rest).mp longest
    rw [text, List.cons_append] at scanned
    simp [nextToken, nextNumber, scanned, noPoint rfl, show _ ∨ _ from begins]
  | @constant _ name value h hw =>
    subst word
    have alpha : c.isAlpha := by
      simp only [Token.constants, List.mem_cons, Prod.mk.injEq, List.not_mem_nil, or_false] at h
      rcases h with ⟨rfl, -⟩ | ⟨rfl, -⟩
      · exact isAlpha_of_inSmallLetters (by decide) hw
      · exact isAlpha_of_inSmallLetters (by decide) hw
    exact nextToken_of_name alpha longest (hw ▸ ofName?_of_mem_constants (hw ▸ h))
  | var hw =>
    subst word
    have alpha : c.isAlpha := isAlpha_of_inSmallLetters (by decide) hw
    exact nextToken_of_name alpha longest (hw ▸ rfl)
  | @function _ f h hw =>
    subst word
    have alpha : c.isAlpha := by
      cases f <;> exact isAlpha_of_inSmallLetters (by decide) hw
    exact nextToken_of_name alpha longest (hw ▸ ofName?_of_mem_named h)
  | @sign f op h =>
    obtain ⟨rfl, rfl⟩ := List.cons_eq_cons.mp word
    obtain rfl := sign f (mem_signs_of_ofSign? h) rfl
    apply nextToken_symbol _ length op rest
    simp [operatorToken?, h]
  | operator op =>
    obtain ⟨rfl, rfl⟩ := List.cons_eq_cons.mp word
    obtain rfl := operator rfl
    exact nextToken_symbol _ length op rest rfl
  | leftParen =>
    obtain ⟨rfl, rfl⟩ := List.cons_eq_cons.mp word
    rfl
  | rightParen =>
    obtain ⟨rfl, rfl⟩ := List.cons_eq_cons.mp word
    rfl

/-! ## All tokens -/

/-- Only a number begins with a point. -/
theorem Writes.kind_eq_number {w : List Char} {t : Token} (h : Writes ('.' :: w) t) :
    t.kind = .number := by
  generalize word : '.' :: w = v at h
  cases h with
  | number | constant => rfl
  | var hw =>
    subst word
    exact absurd (isAlpha_of_inSmallLetters (by decide) hw) (by decide)
  | @function _ f _ hw =>
    subst word
    have alpha : '.'.isAlpha := by
      cases f <;> exact isAlpha_of_inSmallLetters (by decide) hw
    exact absurd alpha (by decide)
  | @sign f op => cases op <;> cases word
  | operator op => cases op <;> cases word
  | leftParen | rightParen => cases word

theorem IsWord.not_isBlank {c : Char} {w : List Char} (h : IsWord (c :: w)) :
    Text.isBlank c = false := by
  rcases h.first with ⟨begins, -⟩ | ⟨alpha, -⟩ | ⟨symbol, -⟩
  · exact not_isBlank_of_first (.inl begins)
  · exact not_isBlank_of_first (.inr (.inl alpha))
  · exact not_isBlank_of_first (.inr (.inr symbol))

/-- Where no operand is expected no point follows: it would begin a number. -/
theorem Spells.head?_ne_point {cs : List Char} {ts : List Token} {after : Bool} (h : Spells cs ts)
    (placed : Placed false ts after) : cs.head? ≠ some '.' := by
  intro point
  cases h with
  | nil => cases point
  | blank h =>
    obtain rfl := Option.some.inj point
    exact absurd h (by decide)
  | word longest writes =>
    obtain ⟨c, v, rfl⟩ := List.exists_cons_of_ne_nil longest.1.ne_nil
    obtain rfl := Option.some.inj point
    have kind := writes.kind_eq_number
    have begins := placed.1
    simp [Token.beginsOperand, kind] at begins

/-- The scan goes on behind the token that it finds. -/
theorem tokensFrom_of_nextToken {expected : Bool} {length : Nat} {c : Char} {rest r : List Char}
    {t : Token} {ts : List Token} (visible : Text.isBlank c = false)
    (next : nextToken expected length c rest = .ok (t, r))
    (later : tokensFrom t.expectsOperand length r = .ok ts) :
    tokensFrom expected length (c :: rest) = .ok (t :: ts) := by
  rw [tokensFrom, if_neg (by simp [visible])]
  split
  · rename_i e failed
    rw [next] at failed
    cases failed
  · rename_i t' rest' found
    rw [next] at found
    cases found
    rw [later]
    rfl

/-- The scan finds the tokens of a text in which operands begin exactly where they are expected. -/
theorem tokensFrom_of_spells {cs : List Char} {ts : List Token} (h : Spells cs ts) (length : Nat)
    {expected after : Bool} (placed : Placed expected ts after) :
    tokensFrom expected length cs = .ok ts := by
  induction h generalizing expected with
  | nil => rw [tokensFrom]
  | blank h _ ih =>
    rw [tokensFrom, if_pos h]
    exact ih placed
  | @word w rest t ts longest writes spells ih =>
    obtain ⟨c, v, rfl⟩ := List.exists_cons_of_ne_nil longest.1.ne_nil
    have noPoint : t.kind = .number → rest.head? ≠ some '.' := by
      intro kind
      have behind := placed.2
      simp only [Token.expectsOperand, Token.isOperand, kind] at behind
      exact spells.head?_ne_point behind
    -- An operator begins no operand, and a sign begins one.
    have operator : t.kind = .operator → expected = false := by
      intro kind
      simpa [Token.beginsOperand, kind] using placed.1.symm
    have sign : ∀ f ∈ Function.signs, t = .ofFunction f → expected = true := by
      rintro f - rfl
      exact placed.1.symm
    have next := nextToken_of_writes length longest writes operator sign noPoint
    exact tokensFrom_of_nextToken longest.1.not_isBlank next (ih placed.2)

/-- Every token that a text spells is written by some word. -/
theorem Spells.exists_writes {cs : List Char} {ts : List Token} (h : Spells cs ts) :
    ∀ t ∈ ts, ∃ w, Writes w t := by
  induction h with
  | nil => exact nofun
  | blank _ _ ih => exact ih
  | word _ writes _ ih =>
    intro u hu
    rcases List.mem_cons.mp hu with rfl | hu
    · exact ⟨_, writes⟩
    · exact ih u hu

/-- Signs stand where operands are expected, and operators where none is. -/
def Signed : (expected : Bool) → List Token → Prop
  | _, [] => True
  | expected, t :: rest => (t.kind = .operator → expected = false) ∧
    (∀ f ∈ Function.signs, t = .ofFunction f → expected = true) ∧ Signed t.expectsOperand rest

/-- The tokens that the scan finds are spelled by the text. -/
theorem spells_of_tokensFrom {expected : Bool} {length : Nat} {cs : List Char} {ts : List Token}
    (h : tokensFrom expected length cs = .ok ts) : Spells cs ts ∧ Signed expected ts := by
  fun_induction tokensFrom expected length cs generalizing ts with
  | case1 =>
    cases h
    exact ⟨.nil, trivial⟩
  | case2 expected c rest blank ih =>
    obtain ⟨spells, signed⟩ := ih h
    exact ⟨.blank blank spells, signed⟩
  | case3 => cases h
  | case4 expected c rest blank t rest' found ih =>
    obtain ⟨w, text, longest, writes, operator, sign⟩ := writes_of_nextToken found
    rcases later : tokensFrom t.expectsOperand length rest' with e | us
    · rw [later] at h
      cases h
    · rw [later] at h
      obtain rfl : t :: us = ts := Except.ok.inj h
      obtain ⟨spells, signed⟩ := ih later
      exact ⟨text ▸ .word longest writes spells, operator, sign, signed⟩

end EquationSolver
