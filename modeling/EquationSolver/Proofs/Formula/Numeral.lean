import EquationSolver.Decimal.Numeral
import EquationSolver.Proofs.Formula.Spelling

/-!
# Literals as numbers

The reader of numbers knows more texts than literals: white space around a number, digits of other
scripts, underscores, a sign and the names of special values. A literal has none of these, so the
steps that clean a text up leave it as it is, and it is read as it was scanned.

## Main results

* `Literal.WellFormed.numeralChars?`: a literal is clean
* `Literal.readFloat?_text`: a literal is read, as the double nearest to it
-/

namespace EquationSolver.Literal

/-- The characters that a literal is written in. -/
def chars : List Char := "0123456789.eE+-".toList

theorem mem_chars_of_isAsciiDigit {c : Char} (h : isAsciiDigit c) : c ∈ chars := by
  obtain ⟨least, most⟩ := isAsciiDigit_iff.mp h
  have each : ∀ code ≤ 57, 48 ≤ code → Char.ofNat code ∈ chars := by decide
  rw [← Char.ofNat_toNat c]
  exact each c.toNat most least

theorem WellFormed.mem_chars {l : Literal} (h : l.WellFormed) {c : Char} (hc : c ∈ l.text) :
    c ∈ chars := by
  simp only [text, List.mem_append] at hc
  rcases hc with (((hc | hc) | hc) | hc) | hc
  · exact mem_chars_of_isAsciiDigit (h.whole c hc)
  · have point : l.point = ['.'] := h.point.resolve_right fun none => by simp [none.1] at hc
    rw [point, List.mem_singleton] at hc
    subst hc
    decide
  · exact mem_chars_of_isAsciiDigit (h.fraction c hc)
  · obtain ⟨d, sign, letters, letter, hsign⟩ : IsMark l.mark :=
      (h.mark.resolve_right fun none => by simp [none.1] at hc).1
    rw [letters, List.mem_cons] at hc
    rcases hc with rfl | hc
    · rcases letter with rfl | rfl <;> decide
    · rcases hsign with rfl | rfl | rfl
      · cases hc
      · obtain rfl := List.mem_singleton.mp hc
        decide
      · obtain rfl := List.mem_singleton.mp hc
        decide
  · exact mem_chars_of_isAsciiDigit (h.scale c hc)

theorem dropUnderscores?_of_ne {cs : List Char} (h : ∀ c ∈ cs, c ≠ '_') (afterDigit : Bool) :
    dropUnderscores? afterDigit cs = some cs := by
  induction cs generalizing afterDigit with
  | nil => rw [dropUnderscores?]
  | cons c rest ih =>
    have ne := h c List.mem_cons_self
    rw [dropUnderscores?, ih fun d hd => h d (List.mem_cons_of_mem c hd)]
    · rfl
    · exact fun same => ne same

theorem trim_of_none {p : Char → Bool} {cs : List Char} (h : ∀ c ∈ cs, p c = false) :
    Text.trim p cs = cs := by
  have kept {cs : List Char} (h : ∀ c ∈ cs, p c = false) : cs.dropWhile p = cs := by
    cases cs with
    | nil => rfl
    | cons c rest => exact List.dropWhile_cons_of_neg (by simp [h c List.mem_cons_self])
  rw [Text.trim, kept h, kept (by simpa using h), List.reverse_reverse]

/-- The characters of a literal stay as they are when its text is cleaned up. -/
theorem WellFormed.numeralChars? {l : Literal} (h : l.WellFormed) :
    numeralChars? (.ofList l.text) = some l.text := by
  have each : chars.all fun c => !Text.isSpace c && Text.toAsciiDigit c == c && c != '_' := by
    decide +kernel
  have same (c : Char) (hc : c ∈ l.text) :
      Text.isSpace c = false ∧ Text.toAsciiDigit c = c ∧ c ≠ '_' := by
    simpa [and_assoc] using List.all_eq_true.mp each c (h.mem_chars hc)
  have digits : l.text.map Text.toAsciiDigit = l.text := by
    rw [List.map_congr_left fun c hc => (same c hc).2.1, List.map_id']
  rw [EquationSolver.numeralChars?, String.toList_ofList, trim_of_none fun c hc => (same c hc).1,
    digits]
  exact dropUnderscores?_of_ne (fun c hc => (same c hc).2.2) false

/-- A literal is read as the double nearest to it. -/
theorem readFloat?_text {l : Literal} (h : l.WellFormed) :
    readFloat? (.ofList l.text) = some l.toFloat := by
  have unsigned : scanSign l.text = ([], l.text) := by
    obtain ⟨c, w, text, begins⟩ := h.first
    have noSign : ¬ (c = '+' ∨ c = '-') := by
      rintro (rfl | rfl) <;> exact absurd begins (not_beginsNumber_of_mem_symbols (by decide))
    rw [text, scanSign, if_neg noSign]
  rw [readFloat?, h.numeralChars?]
  simp [unsigned, unsignedFloat?, h.scan?_text]

end EquationSolver.Literal
