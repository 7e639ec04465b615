import EquationSolver.Decimal.Literal
import Mathlib.Data.List.TakeWhile

/-!
# The longest number literal

Which rows of characters are number literals is said without the scan: digits with or without a
point, at least one of them, and behind them a letter `e` with an optional sign and digits, or
nothing. The scan takes the longest literal at the start of a text: it stops where no further
character belongs to the literal, and a literal that does not stop there can be extended.

## Main definitions

* `Literal.WellFormed`: the parts of a literal are as its pattern says
* `Literal.Stops`: the characters behind the literal do not belong to it

## Main results

* `Literal.wellFormed_of_scan?`, `Literal.length_le_of_scan?`: a scanned literal is well formed, and
  no well formed literal at the start of the text is longer
* `Literal.scan?_of_longest`: the longest literal is the one that is scanned
-/

namespace EquationSolver.Literal

/-- The letter of an exponent with its sign. -/
def IsMark (m : List Char) : Prop :=
  ∃ c sign, m = c :: sign ∧ (c = 'e' ∨ c = 'E') ∧ (sign = [] ∨ sign = ['+'] ∨ sign = ['-'])

/-- The parts of a literal are as its pattern says. -/
structure WellFormed (l : Literal) : Prop where
  /-- Digits before the point. -/
  whole : ∀ c ∈ l.whole, isAsciiDigit c
  /-- Digits after it. -/
  fraction : ∀ c ∈ l.fraction, isAsciiDigit c
  /-- At least one digit in all. -/
  digits : l.whole ≠ [] ∨ l.fraction ≠ []
  /-- No digits after a point that is not there. -/
  point : l.point = ['.'] ∨ l.point = [] ∧ l.fraction = []
  /-- Digits of the exponent. -/
  scale : ∀ c ∈ l.scale, isAsciiDigit c
  /-- No exponent without digits. -/
  mark : IsMark l.mark ∧ l.scale ≠ [] ∨ l.mark = [] ∧ l.scale = []

/-- The characters behind the literal do not belong to it. -/
structure Stops (l : Literal) (rest : List Char) : Prop where
  /-- No further digit. -/
  digit : ∀ c ∈ rest.head?, isAsciiDigit c = false
  /-- No point that could still come. -/
  point : l.scale = [] → l.point = [] → rest.head? ≠ some '.'
  /-- No exponent that could still come. -/
  mark : l.scale = [] → (scanExponent rest).1 = []

/-! ## The parts of the scan -/

theorem takeWhile_append_eq {p : Char → Bool} {as bs : List Char} (ha : ∀ c ∈ as, p c)
    (hb : ∀ c ∈ bs.head?, p c = false) :
    (as ++ bs).takeWhile p = as ∧ (as ++ bs).dropWhile p = bs := by
  rw [List.takeWhile_append_of_pos ha, List.dropWhile_append_of_pos ha]
  cases bs with
  | nil => simp
  | cons c cs => simp [hb c rfl]

theorem scanPoint_of_head? {cs : List Char} (h : cs.head? ≠ some '.') :
    scanPoint cs = ([], cs) := by
  unfold scanPoint
  split
  · exact absurd rfl h
  · rfl

theorem scanPoint_cases (cs : List Char) : (scanPoint cs).1 = ['.'] ∨ (scanPoint cs).1 = [] := by
  unfold scanPoint
  split
  · exact .inl rfl
  · exact .inr rfl

theorem scanSign_cases (cs : List Char) :
    (scanSign cs).1 = [] ∨ (scanSign cs).1 = ['+'] ∨ (scanSign cs).1 = ['-'] := by
  unfold scanSign
  split
  · split
    · rename_i h
      rcases h with rfl | rfl <;> simp
    · exact .inl rfl
  · exact .inl rfl

/-- What is scanned as an exponent is one, or nothing is. -/
theorem scanExponent_cases (cs : List Char) :
    scanExponent cs = ([], [], cs) ∨
      IsMark (scanExponent cs).1 ∧ (scanExponent cs).2.1 ≠ [] ∧
        ∀ c ∈ (scanExponent cs).2.1, isAsciiDigit c := by
  unfold scanExponent
  split
  · exact .inl rfl
  · rename_i c rest
    dsimp only
    split
    · rename_i h
      exact .inr ⟨⟨c, _, rfl, h.1, scanSign_cases rest⟩, h.2, fun _ => List.mem_takeWhile_imp⟩
    · exact .inl rfl

/-- An exponent is scanned up to the first character that is no digit. -/
theorem scanExponent_of_isMark {mark scale rest : List Char} (hm : IsMark mark) (hs : scale ≠ [])
    (digits : ∀ c ∈ scale, isAsciiDigit c) (stop : ∀ c ∈ rest.head?, isAsciiDigit c = false) :
    scanExponent (mark ++ scale ++ rest) = (mark, scale, rest) := by
  obtain ⟨c, sign, rfl, letter, hsign⟩ := hm
  obtain ⟨take, drop⟩ := takeWhile_append_eq digits stop
  -- The exponent begins with a digit where it has no sign, and a digit is no sign.
  have sign' : scanSign (sign ++ scale ++ rest) = (sign, scale ++ rest) := by
    rcases hsign with rfl | rfl | rfl
    · cases scale with
      | nil => exact absurd rfl hs
      | cons d ds =>
        have digit := digits d List.mem_cons_self
        have nosign : ¬ (d = '+' ∨ d = '-') := by
          rintro (rfl | rfl) <;> exact absurd digit (by decide)
        simp [scanSign, nosign]
    · simp [scanSign]
    · simp [scanSign]
  rw [List.append_assoc] at sign'
  simp [scanExponent, sign', letter, take, drop, hs]

/-! ## The scan -/

theorem wellFormed_of_scan? {cs rest : List Char} {l : Literal} (h : scan? cs = some (l, rest)) :
    l.WellFormed := by
  simp only [scan?, Option.ite_none_left_eq_some, Option.some.injEq, Prod.mk.injEq] at h
  obtain ⟨digits, rfl, -⟩ := h
  -- Digits behind the point are scanned only where there is a point.
  have fraction (point cs : List Char) : (∀ c ∈ (scanFraction point cs).1, isAsciiDigit c) ∧
      (point = [] → (scanFraction point cs).1 = []) := by
    unfold scanFraction
    split
    · simp
    · refine ⟨?_, fun none => absurd none ‹_›⟩
      intro c hc
      exact List.mem_takeWhile_imp hc
  refine ⟨fun _ => List.mem_takeWhile_imp, (fraction _ _).1, ?_, ?_, ?_, ?_⟩
  · rwa [not_and_or] at digits
  · exact (scanPoint_cases _).imp_right fun none => ⟨none, (fraction _ _).2 none⟩
  · rcases scanExponent_cases (scanFraction (scanPoint (cs.dropWhile isAsciiDigit)).1
      (scanPoint (cs.dropWhile isAsciiDigit)).2).2 with none | ⟨-, -, scale⟩
    · simp [none]
    · exact scale
  · rcases scanExponent_cases (scanFraction (scanPoint (cs.dropWhile isAsciiDigit)).1
      (scanPoint (cs.dropWhile isAsciiDigit)).2).2 with none | ⟨mark, some, -⟩
    · simp [none]
    · exact .inl ⟨mark, some⟩

/-- The exponent of a literal that stops is scanned, and no digit and no point begins it. -/
theorem exponent_of_stops {l : Literal} {rest : List Char} (h : l.WellFormed)
    (stops : l.Stops rest) :
    scanExponent (l.mark ++ l.scale ++ rest) = (l.mark, l.scale, rest) ∧
      (∀ c ∈ (l.mark ++ l.scale ++ rest).head?, isAsciiDigit c = false) ∧
      (l.point = [] → (l.mark ++ l.scale ++ rest).head? ≠ some '.') := by
  rcases h.mark with ⟨mark, some⟩ | ⟨mark, scale⟩
  · refine ⟨scanExponent_of_isMark mark some h.scale stops.digit, ?_⟩
    obtain ⟨c, sign, letters, letter, -⟩ := mark
    rw [letters]
    rcases letter with rfl | rfl <;> exact ⟨by simp; decide, by simp⟩
  · simp only [mark, scale, List.nil_append]
    refine ⟨?_, stops.digit, stops.point scale⟩
    -- What follows is no exponent, for the literal would go on with it.
    rcases scanExponent_cases rest with none | ⟨isMark, -⟩
    · exact none
    · obtain ⟨c, sign, letters, -⟩ := isMark
      rw [stops.mark scale] at letters
      cases letters

/-- A literal that stops is scanned. -/
theorem scan?_of_stops {l : Literal} {rest : List Char} (h : l.WellFormed) (stops : l.Stops rest) :
    scan? (l.text ++ rest) = some (l, rest) := by
  obtain ⟨exponent, nodigit, nopoint⟩ := exponent_of_stops h stops
  have some : ¬ (l.whole = [] ∧ l.fraction = []) := not_and_or.mpr h.digits
  have parts : l.text ++ rest =
      l.whole ++ (l.point ++ (l.fraction ++ (l.mark ++ l.scale ++ rest))) := by
    simp [text]
  rw [parts]
  -- The digits before the point end at the point, or at what follows the literal's digits.
  rcases h.point with point | ⟨point, fraction⟩
  · have stop : ∀ c ∈ ('.' :: (l.fraction ++ (l.mark ++ l.scale ++ rest))).head?,
        isAsciiDigit c = false := by
      rintro c hc
      obtain rfl := Option.some.inj hc
      rfl
    obtain ⟨whole, afterWhole⟩ := takeWhile_append_eq h.whole stop
    obtain ⟨digits, afterDigits⟩ := takeWhile_append_eq h.fraction nodigit
    simp only [point, List.singleton_append]
    simp only [scan?, whole, afterWhole, scanPoint, scanFraction, digits, afterDigits, exponent,
      some, if_false, List.cons_ne_nil]
    rw [← point]
  · obtain ⟨whole, afterWhole⟩ := takeWhile_append_eq h.whole nodigit
    have noPoint := scanPoint_of_head? (nopoint point)
    simp only [fraction] at some
    simp only [point, fraction, List.nil_append]
    simp only [scan?, whole, afterWhole, noPoint, scanFraction, exponent, some, if_true, if_false]
    congr 3
    · exact point.symm
    · exact fraction.symm

/-- A literal is all that is scanned of its text. -/
theorem WellFormed.scan?_text {l : Literal} (h : l.WellFormed) : scan? l.text = some (l, []) := by
  have stops : l.Stops [] := ⟨nofun, nofun, fun _ => rfl⟩
  rw [← List.append_nil l.text]
  exact scan?_of_stops h stops

/-- Some well formed literal at the start of the text is longer than `l`. -/
def CanGrow (l : Literal) (rest : List Char) : Prop :=
  ∃ (l' : Literal) (rest' : List Char), l'.WellFormed ∧ l'.text ++ rest' = l.text ++ rest ∧
    l.text.length < l'.text.length

theorem WellFormed.mark_eq_nil {l : Literal} (h : l.WellFormed) (scale : l.scale = []) :
    l.mark = [] :=
  (h.mark.resolve_left fun h => h.2 scale).1

/-- A digit extends the last part of the literal that holds digits. -/
theorem canGrow_of_digit {l : Literal} {d : Char} {r : List Char} (h : l.WellFormed)
    (hd : isAsciiDigit d) : l.CanGrow (d :: r) := by
  have snoc {ds : List Char} (hds : ∀ c ∈ ds, isAsciiDigit c) :
      ∀ c ∈ ds ++ [d], isAsciiDigit c := by
    rw [List.forall_mem_append, List.forall_mem_singleton]
    exact ⟨hds, hd⟩
  -- That part is the exponent, the fraction or the digits before the point.
  by_cases scale : l.scale = []
  · have mark := h.mark_eq_nil scale
    rcases h.point with point | ⟨point, fraction⟩
    · refine ⟨{ l with fraction := l.fraction ++ [d] }, r,
        { h with fraction := snoc h.fraction, digits := by simp, point := .inl point }, ?_, ?_⟩
        <;> simp [text, mark, scale]
    · refine ⟨{ l with whole := l.whole ++ [d] }, r,
        { h with whole := snoc h.whole, digits := by simp }, ?_, ?_⟩
        <;> simp [text, mark, scale, point, fraction]
  · have mark : IsMark l.mark := (h.mark.resolve_right fun h => scale h.2).1
    refine ⟨{ l with scale := l.scale ++ [d] }, r,
      { h with scale := snoc h.scale, mark := .inl ⟨mark, by simp⟩ }, ?_, ?_⟩ <;> simp [text]

/-- A point extends a literal without point and exponent. -/
theorem canGrow_of_point {l : Literal} {r : List Char} (h : l.WellFormed) (scale : l.scale = [])
    (point : l.point = []) : l.CanGrow ('.' :: r) := by
  obtain ⟨-, fraction⟩ := h.point.resolve_left (by simp [point])
  refine ⟨{ l with point := ['.'] }, r, { h with point := .inl rfl }, ?_, ?_⟩
    <;> simp [text, h.mark_eq_nil scale, scale, point, fraction]

/-- An exponent extends a literal without one. -/
theorem canGrow_of_exponent {l : Literal} {rest : List Char} (h : l.WellFormed)
    (scale : l.scale = []) (exponent : (scanExponent rest).1 ≠ []) : l.CanGrow rest := by
  rcases scanExponent_cases rest with none | ⟨isMark, some, digits⟩
  · exact absurd (by rw [none]) exponent
  · refine ⟨{ l with mark := (scanExponent rest).1, scale := (scanExponent rest).2.1 },
      (scanExponent rest).2.2, { h with scale := digits, mark := .inl ⟨isMark, some⟩ }, ?_, ?_⟩
    · have parts := scanExponent_append rest
      simp [text, h.mark_eq_nil scale, scale, parts]
    · have := List.length_pos_iff.mpr some
      simp only [text, h.mark_eq_nil scale, scale, List.length_append, List.length_nil]
      omega

/-- A literal that does not stop can be extended. -/
theorem canGrow_of_not_stops {l : Literal} {rest : List Char} (h : l.WellFormed)
    (goes : ¬ l.Stops rest) : l.CanGrow rest := by
  apply Classical.byContradiction
  intro stuck
  -- Whatever the literal could go on with extends it, so it stops.
  refine goes ⟨?_, ?_, ?_⟩
  · intro c hc
    obtain ⟨r, rfl⟩ := List.head?_eq_some_iff.mp hc
    exact Bool.eq_false_iff.mpr fun hd => stuck (canGrow_of_digit h hd)
  · intro scale point dot
    obtain ⟨r, rfl⟩ := List.head?_eq_some_iff.mp dot
    exact stuck (canGrow_of_point h scale point)
  · intro scale
    apply Classical.byContradiction
    intro exponent
    exact stuck (canGrow_of_exponent h scale exponent)

/-- Below any well formed literal at the start of a text lies the one that is scanned. -/
theorem exists_scan? {l : Literal} (rest : List Char) (h : l.WellFormed) :
    ∃ (l' : Literal) (rest' : List Char), scan? (l.text ++ rest) = some (l', rest') ∧
      l.text.length ≤ l'.text.length := by
  by_cases stops : l.Stops rest
  · exact ⟨l, rest, scan?_of_stops h stops, Nat.le_refl _⟩
  · -- A longer literal leaves less of the text, so there is a longest one.
    obtain ⟨l', rest', h', same, longer⟩ := canGrow_of_not_stops h stops
    have shorter : rest'.length < rest.length := by
      have lengths := congrArg List.length same
      simp only [List.length_append] at lengths
      omega
    obtain ⟨l'', rest'', scanned, le⟩ := exists_scan? rest' h'
    exact ⟨l'', rest'', same ▸ scanned, by omega⟩
termination_by rest.length

/-- No well formed literal at the start of a text is longer than the one that is scanned. -/
theorem length_le_of_scan? {cs rest : List Char} {l : Literal} (h : scan? cs = some (l, rest))
    {l' : Literal} (h' : l'.WellFormed) (start : l'.text <+: cs) :
    l'.text.length ≤ l.text.length := by
  obtain ⟨rest', rfl⟩ := start
  obtain ⟨l'', rest'', scanned, le⟩ := exists_scan? rest' h'
  obtain ⟨rfl, -⟩ : l = l'' ∧ rest = rest'' := by simpa [scanned, eq_comm] using h
  exact le

/-- The longest well formed literal at the start of a text is scanned. -/
theorem scan?_of_longest {l : Literal} {rest : List Char} (h : l.WellFormed)
    (longest : ∀ l' : Literal, l'.WellFormed → l'.text <+: l.text ++ rest →
      l'.text.length ≤ l.text.length) : scan? (l.text ++ rest) = some (l, rest) := by
  apply scan?_of_stops h
  apply Classical.byContradiction
  intro goes
  obtain ⟨l', rest', h', same, longer⟩ := canGrow_of_not_stops h goes
  exact absurd (longest l' h' ⟨rest', same⟩) (Nat.not_le.mpr longer)

end EquationSolver.Literal
