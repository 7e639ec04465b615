import EquationSolver.Text.Digit
import EquationSolver.Text.Quoted

/-!
# Options and positional arguments

A command line is a row of texts. Those that start with a dash are options, which take one value or
none; the others are positional arguments. A long option may be shortened to any beginning that fits
one option only, its value may follow an equals sign, and the value of a short option may follow it
directly. Two dashes in the place of such a value stand for nothing. A negative number and a text
with a space are positional, and so is everything after two dashes.

## Main definitions

* `Given`: what an option was given
* `OptionSpec`, `Positional`, `Grammar`: what a program accepts, and what its arguments do to the
  settings
* `ArgumentError`: why arguments are refused
* `Part`, `Grammar.classify`: the part that a text plays
* `Grammar.parse`: the settings that a row of texts leads to
-/

namespace EquationSolver.CommandLine

/-! ## Errors -/

/-- Why a value is refused. -/
inductive ValueFault where
  /-- It is no number of the kind that is asked for. -/
  | notNumber (kind text : String)
  /-- It is none of the choices. -/
  | notChoice (text : String) (choices : List String)

/-- The message of a fault. -/
def ValueFault.message : ValueFault → String
  | notNumber kind text => "invalid " ++ kind ++ " value: " ++ Text.quote text
  | notChoice text choices =>
    "invalid choice: " ++ Text.quote text ++ " (choose from "
      ++ ", ".intercalate (choices.map Text.quote) ++ ")"

/-- Why arguments are refused. -/
inductive ArgumentError where
  /-- The value of an argument is refused. -/
  | badValue (argument : String) (fault : ValueFault)
  /-- An option has no value. -/
  | missingValue (argument : String)
  /-- An option takes no value but has one. -/
  | ignoredValue (argument text : String)
  /-- A text shortens more than one option. -/
  | ambiguous (text : String) (names : List String)
  /-- Positional arguments are missing. -/
  | missing (arguments : List String)
  /-- There are arguments that nothing takes. -/
  | unrecognized (texts : List String)

/-- The message of an error. -/
def ArgumentError.message : ArgumentError → String
  | badValue argument fault => "argument " ++ argument ++ ": " ++ fault.message
  | missingValue argument => "argument " ++ argument ++ ": expected one argument"
  | ignoredValue argument text =>
    "argument " ++ argument ++ ": ignored explicit argument " ++ Text.quote text
  | ambiguous text names =>
    "ambiguous option: " ++ text ++ " could match " ++ ", ".intercalate names
  | missing arguments =>
    "the following arguments are required: " ++ ", ".intercalate arguments
  | unrecognized texts => "unrecognized arguments: " ++ " ".intercalate texts

/-- Why reading the arguments stops early. -/
inductive Interruption where
  /-- Help was asked for. -/
  | help
  /-- An argument is refused. -/
  | refused (cause : ArgumentError)

/-! ## What a program accepts -/

/-- What an option was given. -/
inductive Given (α : Type) where
  /-- A value. -/
  | value (x : α)
  /-- Nothing: two dashes were attached to the option. -/
  | nothing
  deriving DecidableEq

namespace Given

variable {α β : Type}

/-- The value, if there is one. -/
def toOption : Given α → Option α
  | value x => some x
  | nothing => none

/-- Whether there is no value. -/
def isNothing : Given α → Bool
  | value _ => false
  | nothing => true

/-- The value as a reader understands it, if there is one. -/
def read {ε : Type} (f : α → Except ε β) : Given α → Except ε (Given β)
  | value x => (f x).map .value
  | nothing => .ok .nothing

/-- What is given by the text attached to an option. -/
def ofAttached (text : String) : Given String := if text = "--" then nothing else value text

end Given

/-- Whether an option was used and given nothing. -/
def isGivenNothing {α : Type} (x : Option (Given α)) : Bool := (x.map Given.isNothing).getD false

variable {σ : Type}

/-- What an option does to the settings. -/
inductive OptionAction (σ : Type) where
  /-- It takes no value. -/
  | flag (set : σ → σ)
  /-- It takes one value. -/
  | value (set : Given String → σ → Except ValueFault σ)
  /-- It asks for help. -/
  | help

/-- An option. -/
structure OptionSpec (σ : Type) where
  /-- The names of the option, the dashes included. -/
  names : List String
  /-- What the option does. -/
  action : OptionAction σ

/-- The name of an option in messages. -/
def OptionSpec.label (o : OptionSpec σ) : String := "/".intercalate o.names

/-- How many texts a positional argument takes. -/
inductive Count where
  /-- One. -/
  | one
  /-- As many as follow each other. -/
  | many
  /-- One and everything after it, options included. -/
  | rest
  deriving DecidableEq

/-- A positional argument. -/
structure Positional (σ : Type) where
  /-- The name of the argument in messages. -/
  name : String
  /-- How many texts it takes. -/
  count : Count
  /-- What the texts do to the settings. -/
  set : List String → σ → Except ValueFault σ

/-- What a program accepts. -/
structure Grammar (σ : Type) where
  /-- The options. -/
  options : List (OptionSpec σ)
  /-- The positional arguments, in order. One that takes more than one text comes last. -/
  positionals : List (Positional σ)

/-- All names of options, with their options. -/
def Grammar.names (g : Grammar σ) : List (String × OptionSpec σ) :=
  g.options.flatMap fun o => o.names.map fun name => (name, o)

/-! ## The parts that texts play -/

/-- An option that was recognized in a text. -/
structure Found (σ : Type) where
  /-- The name of the option in full. -/
  name : String
  /-- The option. -/
  option : OptionSpec σ
  /-- The value that stands in the same text. -/
  attached : Option String := none

/-- The part that a text plays. -/
inductive Part (σ : Type) where
  /-- A positional argument or the value of an option. -/
  | plain (text : String)
  /-- The two dashes that end the options. -/
  | dashes
  /-- An option, recognized or not. -/
  | option (text : String) (found : Option (Found σ))

namespace Part

/-- The text that plays the part. -/
def text : Part σ → String
  | plain text => text
  | dashes => "--"
  | option text _ => text

/-- Whether the part is an option. -/
def isOption : Part σ → Bool
  | option _ _ => true
  | _ => false

/-- Whether the part is the two dashes. -/
def isDashes : Part σ → Bool
  | dashes => true
  | _ => false

end Part

/-- The parts of a text before and after its first equals sign. -/
def splitEquals (text : String) : Option (String × String) :=
  match text.toList.span (· ≠ '=') with
  | (name, _ :: value) => some (.ofList name, .ofList value)
  | (_, []) => none

/-- A whole number or a decimal fraction after a minus sign; a line feed may follow. -/
def isNegativeNumber (text : String) : Bool :=
  match text.toList with
  | '-' :: cs =>
    let cs := if cs.getLast? = some '\n' then cs.dropLast else cs
    match cs.span Text.isAnyDigit with
    | (whole, []) => !whole.isEmpty
    | (_, '.' :: fraction) => !fraction.isEmpty && fraction.all Text.isAnyDigit
    | _ => false
  | _ => false

/-- The options that a text starting with two dashes shortens. -/
def Grammar.longCandidates (g : Grammar σ) (text : String) : List (Found σ) :=
  let (stem, attached) : String × Option String := match splitEquals text with
    | some (stem, value) => (stem, some value)
    | none => (text, none)
  (g.names.filter fun (name, _) => stem.toList.isPrefixOf name.toList).map
    fun (name, option) => ⟨name, option, attached⟩

/-- The options that a text starting with one dash may mean: the short option of its first letter
with a value attached, or a name that it shortens. -/
def Grammar.shortCandidates (g : Grammar σ) (text : String) : List (Found σ) :=
  let (short, value) := text.toList.splitAt 2
  g.names.filterMap fun (name, option) =>
    if name.toList = short then some ⟨name, option, some (.ofList value)⟩
    else if text.toList.isPrefixOf name.toList then some ⟨name, option, none⟩
    else none

/-- The options that a text may mean when it is not the name of one. -/
def Grammar.candidates (g : Grammar σ) (text : String) : List (Found σ) :=
  match splitEquals text with
  | some (name, value) =>
    match g.names.lookup name with
    | some option => [⟨name, option, some value⟩]
    | none => others
  | none => others
where
  others := if text.startsWith "--" then g.longCandidates text else g.shortCandidates text

/-- The part that a text plays before the two dashes. -/
def Grammar.classify (g : Grammar σ) (text : String) : Except ArgumentError (Part σ) :=
  if !text.startsWith "-" then .ok (.plain text)
  else match g.names.lookup text with
    | some option => .ok (.option text (some ⟨text, option, none⟩))
    | none =>
      if text = "-" then .ok (.plain text)
      else match g.candidates text with
        | [found] => .ok (.option text (some found))
        | [] =>
          if isNegativeNumber text || text.contains ' ' then .ok (.plain text)
          else .ok (.option text none)
        | several => .error (.ambiguous text (several.map Found.name))

/-- The parts that a row of texts plays. -/
def Grammar.classifyAll (g : Grammar σ) : List String → Except ArgumentError (List (Part σ))
  | [] => .ok []
  | text :: rest =>
    if text = "--" then .ok (.dashes :: rest.map .plain)
    else do
      let part ← g.classify text
      return part :: (← g.classifyAll rest)

/-! ## Taking the arguments -/

/-- How many parts a positional argument takes from the start of a row, if it can. Two dashes around
it are taken with it. -/
def Count.take? (count : Count) (parts : List (Part σ)) : Option Nat :=
  match count with
  | .many => some (parts.takeWhile fun p => !p.isOption).length
  | .one | .rest =>
    let before := parts.takeWhile Part.isDashes
    match parts.drop before.length with
    | .plain _ :: after =>
      some (before.length + 1 +
        if count = .one then (after.takeWhile Part.isDashes).length else after.length)
    | _ => none

/-- How many parts each of some positional arguments takes, if all of them can. -/
def takeAll? : List (Positional σ) → List (Part σ) → Option (List Nat)
  | [], _ => some []
  | p :: ps, parts => do
    let k ← p.count.take? parts
    return k :: (← takeAll? ps (parts.drop k))

/-- How many parts the positional arguments take, as many of them as can. -/
def takeMost (ps : List (Positional σ)) (parts : List (Part σ)) : List Nat :=
  let counts := (List.range (ps.length + 1)).reverse.findSome? fun k => takeAll? (ps.take k) parts
  counts.getD []

/-- The texts of a positional argument: the first two dashes among them are dropped, unless the
argument takes everything. -/
def Positional.texts (p : Positional σ) (parts : List (Part σ)) : List String :=
  let texts := parts.map Part.text
  if p.count = .rest then texts else texts.erase "--"

/-- Settings, with what is still to come. -/
structure Progress (σ : Type) where
  /-- The settings so far. -/
  settings : σ
  /-- The positional arguments still to come. -/
  positionals : List (Positional σ)
  /-- The texts that nothing took. -/
  extras : List String

/-- The settings after the positional arguments that can be taken, and the parts after them. -/
def Progress.takePositionals (s : Progress σ) (parts : List (Part σ)) :
    Except ArgumentError (Progress σ × List (Part σ)) := do
  let counts := takeMost s.positionals parts
  let (settings, rest) ← (s.positionals.zip counts).foldlM (fun (settings, parts) (p, k) =>
    match p.set (p.texts (parts.take k)) settings with
    | .ok settings' => .ok (settings', parts.drop k)
    | .error fault => .error (.badValue p.name fault)) (s.settings, parts)
  return (⟨settings, s.positionals.drop counts.length, s.extras⟩, rest)

/-- An option as it is used. -/
structure Use (σ : Type) where
  /-- The option. -/
  option : OptionSpec σ
  /-- What it was given. It is nothing if the option takes no value. -/
  given : Given String := .nothing

/-- The settings after an option is used. -/
def Use.apply (u : Use σ) (s : σ) : Except Interruption σ :=
  match u.option.action with
  | .help => .error .help
  | .flag set => .ok (set s)
  | .value set => (set u.given s).mapError fun fault => .refused (.badValue u.option.label fault)

/-- The options that a text uses, in order, and the parts after the text and the value that it takes
from them. -/
structure Reading (σ : Type) where
  /-- The options. -/
  uses : List (Use σ)
  /-- The parts. -/
  rest : List (Part σ)

/-- The reading of an option without an attached value: a value is the next part. -/
def OptionSpec.readBare (o : OptionSpec σ) (parts : List (Part σ)) :
    Except ArgumentError (Reading σ) :=
  match o.action, parts with
  | .value _, .plain text :: rest => .ok { uses := [⟨o, .value text⟩], rest }
  | .value _, _ => .error (.missingValue o.label)
  | _, _ => .ok { uses := [{ option := o }], rest := parts }

/-- The reading of an option with an attached value. What is attached to a short option that takes
no value is a row of further short options. -/
def Grammar.readAttached (g : Grammar σ) (parts : List (Part σ)) (name : String)
    (option : OptionSpec σ) (value : List Char) : Except ArgumentError (Reading σ) :=
  match option.action with
  | .value _ => .ok { uses := [⟨option, .ofAttached (.ofList value)⟩], rest := parts }
  | _ =>
    let ignored : Except ArgumentError (Reading σ) :=
      .error (.ignoredValue option.label (.ofList value))
    match value with
    | [] => ignored
    | c :: more =>
      let next := String.ofList ['-', c]
      match g.names.lookup next with
      | none => ignored
      | some option' =>
        if name.startsWith "--" then ignored
        else
          let after :=
            if more.isEmpty then option'.readBare parts else g.readAttached parts next option' more
          after.map fun r => { r with uses := { option := option } :: r.uses }
termination_by value.length

/-- The settings after an option, and the parts after it. -/
def Grammar.takeOption (g : Grammar σ) (text : String) (found : Option (Found σ)) (s : Progress σ)
    (parts : List (Part σ)) : Except Interruption (Progress σ × List (Part σ)) :=
  match found with
  | none => .ok ({ s with extras := s.extras ++ [text] }, parts)
  | some ⟨name, option, attached⟩ => do
    let read := match attached with
      | some value => g.readAttached parts name option value.toList
      | none => option.readBare parts
    let reading ← read.mapError .refused
    let settings ← reading.uses.foldlM (fun settings u => u.apply settings) s.settings
    return ({ s with settings }, reading.rest)

/-- The settings after a row of parts: positional arguments and options in turn. Each round takes at
least one part, so the length of the row bounds their number. -/
def Grammar.takeParts (g : Grammar σ) : (fuel : Nat) → Progress σ → List (Part σ) →
    Except Interruption (Progress σ)
  | 0, s, _ => .ok s
  | fuel + 1, s, parts => do
    let lead := parts.takeWhile fun p => !p.isOption
    match parts.drop lead.length with
    | .option text found :: rest =>
      if lead.isEmpty then
        let (s', rest') ← g.takeOption text found s rest
        g.takeParts fuel s' rest'
      else
        let (s', after) ← (s.takePositionals parts).mapError .refused
        if after.length < parts.length then g.takeParts fuel s' after
        else
          let s' := { s' with extras := s'.extras ++ lead.map Part.text }
          let (s'', rest') ← g.takeOption text found s' rest
          g.takeParts fuel s'' rest'
    | _ =>
      let (s', after) ← (s.takePositionals parts).mapError .refused
      return { s' with extras := s'.extras ++ after.map Part.text }

/-- The settings that a row of texts leads to from the given ones, and the texts that nothing
took. -/
def Grammar.parse (g : Grammar σ) (settings : σ) (texts : List String) :
    Except Interruption (σ × List String) := do
  let parts ← (g.classifyAll texts).mapError .refused
  let s ← g.takeParts (parts.length + 1) ⟨settings, g.positionals, []⟩ parts
  let missing := s.positionals.map Positional.name
  if missing.isEmpty then return (s.settings, s.extras)
  else .error (.refused (.missing missing))

end EquationSolver.CommandLine
