import EquationSolver.Proofs.Root.Process

/-!
# Starts

Before its first iteration a method tests its parameters in a fixed order, and it starts only if
they pass every test. All that a start can come to is said here once, with the tests that were
passed before: what a method starts from, and which requests it refuses, is read off from this.

## Main definitions

* `BracketStart`, `ChordStart`, `GuessStart`: what the start of a method comes to
* `Request.Starts`: what a method starts from

## Main results

* `bracket?_start`, `chord?_start`, `guessEntry_start`: a start comes to one of these
* `starts_of_entry`: a method starts from the points of its request
* `outcome_of_entry`: a method that ends at its start is refused, or diverges in iteration zero
-/

namespace EquationSolver.Root

variable {α σ : Type} {f second : Evaluable Float} {r : Request} {m : Method} {tol : Float}

theorem startValue_of_ok {f : Evaluable α} {x fx : α} (value : StartValue) (h : f x = .ok fx) :
    startValue value f x = .ok fx := by
  rw [startValue, h]

theorem startValue_of_error {f : Evaluable α} {x : α} {cause : EvalError} (value : StartValue)
    (h : f x = .error cause) :
    startValue value f x = .error (.invalid (.unevaluable value x cause)) := by
  rw [startValue, h]

/-! ## Brackets -/

section Bracket

variable [Mul α] [Zero α] [LT α] [DecidableLT α] [OfScientific α] [Scalar α]

/-- What two ends come to as a bracket. -/
inductive BracketStart (f : Evaluable α) :
    Option α → Option α → Except (Outcome α) (Bracket α) → Prop where
  /-- An end is missing. -/
  | missing {a b : Option α} (h : a = none ∨ b = none) :
    BracketStart f a b (.error (.invalid .bracketMissing))
  /-- The left end is not below the right end. -/
  | order {a b : α} (h : ¬ a < b) :
    BracketStart f (some a) (some b) (.error (.invalid .bracketOrder))
  /-- The function has no value at the left end. -/
  | left {a b : α} {cause : EvalError} (order : a < b) (h : f a = .error cause) :
    BracketStart f (some a) (some b) (.error (.invalid (.unevaluable .leftEnd a cause)))
  /-- The function has no value at the right end. -/
  | right {a b fa : α} {cause : EvalError} (order : a < b) (left : f a = .ok fa)
    (h : f b = .error cause) :
    BracketStart f (some a) (some b) (.error (.invalid (.unevaluable .rightEnd b cause)))
  /-- The values do not fit. -/
  | refused {s : Bracket α} {outcome : Outcome α} (order : s.a < s.b) (left : f s.a = .ok s.fa)
    (right : f s.b = .ok s.fb) (h : s.refusal? = some outcome) :
    BracketStart f (some s.a) (some s.b) (.error outcome)
  /-- They make a bracket. -/
  | ok {s : Bracket α} (order : s.a < s.b) (left : f s.a = .ok s.fa) (right : f s.b = .ok s.fb)
    (h : s.refusal? = none) : BracketStart f (some s.a) (some s.b) (.ok s)

/-- Two ends in order that have values make a bracket if the values fit. -/
theorem bracket?_of_values [Add α] [Sub α] [Div α] [BEq α] [LE α] [DecidableLE α]
    {f : Evaluable α} {s : Bracket α} (order : s.a < s.b) (left : f s.a = .ok s.fa)
    (right : f s.b = .ok s.fb) :
    bracket? f (some s.a) (some s.b) =
      match s.refusal? with
      | some outcome => .error outcome
      | none => .ok s := by
  rw [bracket?, if_pos order, startValue_of_ok _ left, startValue_of_ok _ right]
  rfl

theorem bracket?_start [Add α] [Sub α] [Div α] [BEq α] [LE α] [DecidableLE α] (f : Evaluable α)
    (a b : Option α) : BracketStart f a b (bracket? f a b) := by
  match a, b with
  | none, _ => exact .missing (.inl rfl)
  | some _, none => exact .missing (.inr rfl)
  | some a, some b =>
    rw [bracket?]
    split
    · rename_i order
      rcases left : f a with cause | fa
      · rw [startValue_of_error _ left]
        exact .left order left
      rw [startValue_of_ok _ left]
      rcases right : f b with cause | fb
      · rw [startValue_of_error _ right]
        exact .right order left right
      rw [startValue_of_ok _ right]
      dsimp only [bind, Except.bind]
      cases refusal : (⟨a, fa, b, fb⟩ : Bracket α).refusal? with
      | some outcome => exact .refused (s := ⟨a, fa, b, fb⟩) order left right refusal
      | none => exact .ok (s := ⟨a, fa, b, fb⟩) order left right refusal
    · exact .order ‹_›

theorem of_bracket?_eq_ok [Add α] [Sub α] [Div α] [BEq α] [LE α] [DecidableLE α]
    {f : Evaluable α} {a b : Option α} {s : Bracket α} (h : bracket? f a b = .ok s) :
    a = some s.a ∧ b = some s.b ∧ s.a < s.b ∧ f s.a = .ok s.fa ∧ f s.b = .ok s.fb ∧
      s.refusal? = none := by
  have start := bracket?_start f a b
  rw [h] at start
  cases start with
  | ok order left right fits => exact ⟨rfl, rfl, order, left, right, fits⟩

end Bracket

/-! ## Chords -/

section Chord

variable [Sub α] [LT α] [DecidableLT α] [OfScientific α] [Scalar α]

/-- What two guesses come to as a chord. -/
inductive ChordStart (f : Evaluable α) :
    Option α → Option α → Except (Outcome α) (Chord α) → Prop where
  /-- A guess is missing. -/
  | missing {x₀ x₁ : Option α} (h : x₀ = none ∨ x₁ = none) :
    ChordStart f x₀ x₁ (.error (.invalid .guessesMissing))
  /-- The guesses count as equal. -/
  | equal {x₀ x₁ : α} (h : IsTiny (x₀ - x₁)) :
    ChordStart f (some x₀) (some x₁) (.error (.invalid .guessesEqual))
  /-- The function has no value at the first guess. -/
  | first {x₀ x₁ : α} {cause : EvalError} (apart : ¬ IsTiny (x₀ - x₁)) (h : f x₀ = .error cause) :
    ChordStart f (some x₀) (some x₁) (.error (.invalid (.unevaluable .firstGuess x₀ cause)))
  /-- The function has no value at the second guess. -/
  | second {x₀ x₁ f₀ : α} {cause : EvalError} (apart : ¬ IsTiny (x₀ - x₁)) (first : f x₀ = .ok f₀)
    (h : f x₁ = .error cause) :
    ChordStart f (some x₀) (some x₁) (.error (.invalid (.unevaluable .secondGuess x₁ cause)))
  /-- A guess or its value is too large. -/
  | oversized {s : Chord α} (apart : ¬ IsTiny (s.x₀ - s.x₁)) (first : f s.x₀ = .ok s.f₀)
    (second : f s.x₁ = .ok s.f₁) (h : s.IsOversized) :
    ChordStart f (some s.x₀) (some s.x₁) (.error (.diverged .guessesTooLarge 0))
  /-- They make a chord. -/
  | ok {s : Chord α} (apart : ¬ IsTiny (s.x₀ - s.x₁)) (first : f s.x₀ = .ok s.f₀)
    (second : f s.x₁ = .ok s.f₁) (h : ¬ s.IsOversized) :
    ChordStart f (some s.x₀) (some s.x₁) (.ok s)

theorem chord?_start (f : Evaluable α) (x₀ x₁ : Option α) :
    ChordStart f x₀ x₁ (chord? f x₀ x₁) := by
  match x₀, x₁ with
  | none, _ => exact .missing (.inl rfl)
  | some _, none => exact .missing (.inr rfl)
  | some x₀, some x₁ =>
    rw [chord?]
    split
    · exact .equal ‹_›
    · rename_i apart
      rcases first : f x₀ with cause | f₀
      · rw [startValue_of_error _ first]
        exact .first apart first
      rw [startValue_of_ok _ first]
      rcases second : f x₁ with cause | f₁
      · rw [startValue_of_error _ second]
        exact .second apart first second
      rw [startValue_of_ok _ second]
      change ChordStart f _ _ (if (⟨x₀, f₀, x₁, f₁⟩ : Chord α).IsOversized then
        Except.error (.diverged .guessesTooLarge 0) else Except.ok ⟨x₀, f₀, x₁, f₁⟩)
      split
      · exact .oversized (s := ⟨x₀, f₀, x₁, f₁⟩) apart first second ‹_›
      · exact .ok (s := ⟨x₀, f₀, x₁, f₁⟩) apart first second ‹_›

theorem of_chord?_eq_ok {f : Evaluable α} {x₀ x₁ : Option α} {s : Chord α}
    (h : chord? f x₀ x₁ = .ok s) :
    x₀ = some s.x₀ ∧ x₁ = some s.x₁ ∧ ¬ IsTiny (s.x₀ - s.x₁) ∧ f s.x₀ = .ok s.f₀ ∧
      f s.x₁ = .ok s.f₁ ∧ ¬ s.IsOversized := by
  have start := chord?_start f x₀ x₁
  rw [h] at start
  cases start with
  | ok apart first second sized => exact ⟨rfl, rfl, apart, first, second, sized⟩

end Chord

/-! ## Guesses -/

section Guess

variable [LT α] [DecidableLT α] [OfScientific α] [Scalar α]

/-- What a guess comes to, which a method keeps with its value if it does not pass the test. -/
inductive GuessStart (f : Evaluable α) (keep : α → α → σ) (Found : α → Prop) :
    Option α → Except (Outcome α) (Entry σ α) → Prop where
  /-- The guess is missing. -/
  | missing : GuessStart f keep Found none (.error (.invalid .guessMissing))
  /-- The function has no value at the guess. -/
  | failed {x : α} {cause : EvalError} (h : f x = .error cause) :
    GuessStart f keep Found (some x) (.error (.invalid (.unevaluable .firstGuess x cause)))
  /-- The guess or its value has diverged. -/
  | runaway {x fx : α} (h : f x = .ok fx) (large : IsRunaway x ∨ IsRunaway fx) :
    GuessStart f keep Found (some x)
      (.ok ⟨keep x fx, [⟨0, x, fx, none, none, none⟩], some (.diverged .runaway 0)⟩)
  /-- The guess passes the test. -/
  | found {x fx : α} (h : f x = .ok fx) (sized : ¬ (IsRunaway x ∨ IsRunaway fx))
    (found : Found fx) :
    GuessStart f keep Found (some x)
      (.ok ⟨keep x fx, [⟨0, x, fx, none, none, none⟩], some (.success x 0)⟩)
  /-- The method goes on from the guess. -/
  | goesOn {x fx : α} (h : f x = .ok fx) (sized : ¬ (IsRunaway x ∨ IsRunaway fx))
    (far : ¬ Found fx) :
    GuessStart f keep Found (some x) (.ok ⟨keep x fx, [⟨0, x, fx, none, none, none⟩], none⟩)

theorem guessEntry_start (f : Evaluable α) (keep : α → α → σ) (Found : α → Prop)
    [DecidablePred Found] (x : Option α) :
    GuessStart f keep Found x (guessEntry f keep Found x) := by
  match x with
  | none => exact .missing
  | some x =>
    rw [guessEntry]
    rcases h : f x with cause | fx
    · rw [startValue_of_error _ h]
      exact .failed h
    rw [startValue_of_ok _ h]
    change GuessStart f keep Found _ (Except.ok ⟨_, _, ite _ _ _⟩)
    split
    · exact .runaway h ‹_›
    split
    · exact .found h ‹_› ‹_›
    · exact .goesOn h ‹_› ‹_›

theorem of_guessEntry_eq_ok {f : Evaluable α} {keep : α → α → σ} {Found : α → Prop}
    [DecidablePred Found] {guess : Option α} {e : Entry σ α}
    (h : guessEntry f keep Found guess = .ok e) :
    ∃ x fx, guess = some x ∧ f x = .ok fx ∧
      e = ⟨keep x fx, [⟨0, x, fx, none, none, none⟩],
        if IsRunaway x ∨ IsRunaway fx then some (.diverged .runaway 0)
        else if Found fx then some (.success x 0)
        else none⟩ := by
  have start := guessEntry_start f keep Found guess
  rw [h] at start
  cases start with
  | runaway value large => exact ⟨_, _, rfl, value, by rw [if_pos large]⟩
  | found value sized found => exact ⟨_, _, rfl, value, by rw [if_neg sized, if_pos found]⟩
  | goesOn value sized far => exact ⟨_, _, rfl, value, by rw [if_neg sized, if_neg far]⟩

end Guess

/-! ## Requests -/

/-- What a method starts from: the points of the request, with the values of the function there. The
methods that start from one guess record it. They end with it if it has diverged or its value passes
the test, and otherwise they go on. -/
def Request.Starts (r : Request) (f : Evaluable Float) : (m : Method) → Entry m.State Float → Prop
  | .bisection, ⟨s, lead, _⟩ => lead = [] ∧ r.a = some s.a ∧ r.b = some s.b ∧
    f s.a = .ok s.fa ∧ f s.b = .ok s.fb
  | .regulaFalsi, ⟨(s, before), lead, _⟩ => lead = [] ∧ r.a = some s.a ∧ r.b = some s.b ∧
    f s.a = .ok s.fa ∧ f s.b = .ok s.fb ∧ before = none
  | .secant, ⟨s, lead, _⟩ => lead = [] ∧ (r.initialGuess <|> r.a) = some s.x₀ ∧
    (r.secondGuess <|> r.b) = some s.x₁ ∧ f s.x₀ = .ok s.f₀ ∧ f s.x₁ = .ok s.f₁
  | .newton, ⟨(x, fx), lead, early?⟩ => lead = [⟨0, x, fx, none, none, none⟩] ∧
    r.initialGuess = some x ∧ f x = .ok fx ∧
    early? = if IsRunaway x ∨ IsRunaway fx then some (.diverged .runaway 0)
      else if modulus fx ≤ r.tolerance then some (.success x 0)
      else none
  | .fixedPoint, ⟨x, lead, early?⟩ => ∃ fx, lead = [⟨0, x, fx, none, none, none⟩] ∧
    r.initialGuess = some x ∧ f x = .ok fx ∧
    early? = if IsRunaway x ∨ IsRunaway fx then some (.diverged .runaway 0)
      else if modulus fx < r.tolerance then some (.success x 0)
      else none

theorem exists_of_map_eq_ok {ε β γ : Type} {e : Except ε β} {g : β → γ} {y : γ}
    (h : e.map g = .ok y) : ∃ x, e = .ok x ∧ g x = y := by
  cases e with
  | error _ => cases h
  | ok x => exact ⟨x, rfl, Except.ok.inj h⟩

theorem eq_error_of_map {ε β γ : Type} {e : Except ε β} {g : β → γ} {cause : ε}
    (h : e.map g = .error cause) : e = .error cause := by
  cases e with
  | error _ => exact congrArg _ (Except.error.inj h)
  | ok _ => cases h

theorem starts_of_entry {e : Entry m.State Float}
    (h : (r.process f second m).entry r.tolerance = .ok e) : r.Starts f m e := by
  cases m with
  | bisection =>
    obtain ⟨s, bracket, rfl⟩ := exists_of_map_eq_ok h
    obtain ⟨left, right, -, hfa, hfb, -⟩ := of_bracket?_eq_ok bracket
    exact ⟨rfl, left, right, hfa, hfb⟩
  | regulaFalsi =>
    obtain ⟨s, bracket, rfl⟩ := exists_of_map_eq_ok h
    obtain ⟨left, right, -, hfa, hfb, -⟩ := of_bracket?_eq_ok bracket
    exact ⟨rfl, left, right, hfa, hfb, rfl⟩
  | secant =>
    obtain ⟨s, chord, rfl⟩ := exists_of_map_eq_ok h
    obtain ⟨first, second, -, hf₀, hf₁, -⟩ := of_chord?_eq_ok chord
    exact ⟨rfl, first, second, hf₀, hf₁⟩
  | newton =>
    obtain ⟨x, fx, guess, value, rfl⟩ := of_guessEntry_eq_ok h
    exact ⟨rfl, guess, value, rfl⟩
  | fixedPoint =>
    obtain ⟨x, fx, guess, value, rfl⟩ := of_guessEntry_eq_ok h
    exact ⟨fx, rfl, guess, value, rfl⟩

theorem outcome_of_bracket? {f : Evaluable Float} {a b : Option Float} {outcome : Outcome Float}
    (h : bracket? f a b = .error outcome) :
    (∃ fault, outcome = .invalid fault) ∨ ∃ cause, outcome = .diverged cause 0 := by
  have start := bracket?_start f a b
  rw [h] at start
  cases start with
  | missing | order | left | right => exact .inl ⟨_, rfl⟩
  | refused _ _ _ refusal =>
    rcases Bracket.outcome_of_refusal? refusal with rfl | rfl | rfl
    · exact .inl ⟨_, rfl⟩
    · exact .inr ⟨_, rfl⟩
    · exact .inl ⟨_, rfl⟩

theorem outcome_of_chord? {f : Evaluable Float} {x₀ x₁ : Option Float} {outcome : Outcome Float}
    (h : chord? f x₀ x₁ = .error outcome) :
    (∃ fault, outcome = .invalid fault) ∨ ∃ cause, outcome = .diverged cause 0 := by
  have start := chord?_start f x₀ x₁
  rw [h] at start
  cases start with
  | missing | equal | first | second => exact .inl ⟨_, rfl⟩
  | oversized => exact .inr ⟨_, rfl⟩

theorem outcome_of_guessEntry {keep : Float → Float → σ} {Found : Float → Prop}
    [DecidablePred Found] {guess : Option Float} {outcome : Outcome Float}
    (h : guessEntry f keep Found guess = .error outcome) : ∃ fault, outcome = .invalid fault := by
  have start := guessEntry_start f keep Found guess
  rw [h] at start
  cases start with
  | missing | failed => exact ⟨_, rfl⟩

/-- A method that cannot start is refused, or what it starts from is too large. -/
theorem outcome_of_entry {outcome : Outcome Float}
    (h : (r.process f second m).entry tol = .error outcome) :
    (∃ fault, outcome = .invalid fault) ∨ ∃ cause, outcome = .diverged cause 0 := by
  cases m with
  | bisection | regulaFalsi => exact outcome_of_bracket? (eq_error_of_map h)
  | secant => exact outcome_of_chord? (eq_error_of_map h)
  | newton | fixedPoint => exact .inl (outcome_of_guessEntry h)

/-- A method ends without an iteration at a point that will do, or because its guess has
diverged. -/
def Outcome.IsEarly : Outcome Float → Prop
  | .success _ k => k = 0
  | .diverged _ k => k = 0
  | _ => False

theorem isEarly_of_ite {c : Prop} [Decidable c] {first : Outcome Float}
    {rest : Option (Outcome Float)} (hf : first.IsEarly) (hr : ∀ outcome ∈ rest, outcome.IsEarly) :
    ∀ outcome ∈ if c then some first else rest, outcome.IsEarly := by
  split
  · rintro outcome ⟨⟩
    exact hf
  · exact hr

theorem isEarly_of_guessEntry {keep : Float → Float → σ} {Found : Float → Prop}
    [DecidablePred Found] {guess : Option Float} {e : Entry σ Float}
    (h : guessEntry f keep Found guess = .ok e) : ∀ outcome ∈ e.early?, outcome.IsEarly := by
  have start := guessEntry_start f keep Found guess
  rw [h] at start
  cases start with
  | runaway | found =>
    rintro outcome ⟨⟩
    rfl
  | goesOn => exact nofun

theorem isEarly_of_entry {e : Entry m.State Float}
    (h : (r.process f second m).entry tol = .ok e) : ∀ outcome ∈ e.early?, outcome.IsEarly := by
  cases m with
  | bisection | regulaFalsi =>
    obtain ⟨s, -, rfl⟩ := exists_of_map_eq_ok h
    exact isEarly_of_ite rfl <| isEarly_of_ite rfl <| isEarly_of_ite rfl nofun
  | secant =>
    obtain ⟨s, -, rfl⟩ := exists_of_map_eq_ok h
    exact isEarly_of_ite rfl <| isEarly_of_ite rfl nofun
  | newton | fixedPoint => exact isEarly_of_guessEntry h

end EquationSolver.Root
