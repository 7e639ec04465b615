import EquationSolver.Decimal.Numeral
import EquationSolver.Json.Value

/-!
# Reading JSON

A text holds one value with white space around it. Beyond the standard, the names `NaN`, `Infinity`
and `-Infinity` are read as doubles, and of two members of one name the later one counts. A number
is whole if it has neither a fraction nor an exponent, and then its digits are limited. So is the
depth to which lists and objects are nested.

## Main definitions

* `Json.ReadFault`: why a text holds no value
* `Json.read`: the value that a text holds
-/

namespace EquationSolver.Json

/-- White space between the parts of a value. -/
def isGap (c : Char) : Bool := c = ' ' || c = '\t' || c = '\n' || c = '\r'

/-- The text without the white space at its start. -/
def skipGap (cs : List Char) : List Char := cs.dropWhile isGap

/-- The value of a hexadecimal digit. -/
def hexValue? (c : Char) : Option Nat :=
  if '0' ≤ c ∧ c ≤ '9' then some (c.toNat - '0'.toNat)
  else if 'a' ≤ c ∧ c ≤ 'f' then some (c.toNat - 'a'.toNat + 10)
  else if 'A' ≤ c ∧ c ≤ 'F' then some (c.toNat - 'A'.toNat + 10)
  else none

/-- The number that four hexadecimal digits write. -/
def hexUnit? (a b c d : Char) : Option Nat := do
  return ((← hexValue? a) * 16 + (← hexValue? b)) * 256 + (← hexValue? c) * 16 + (← hexValue? d)

/-- Whether a unit is the first or the second of a pair that encodes one character. -/
def isHighUnit (u : Nat) : Bool := 0xd800 ≤ u && u < 0xdc00

@[inherit_doc isHighUnit]
def isLowUnit (u : Nat) : Bool := 0xdc00 ≤ u && u < 0xe000

/-- The character of a pair of units. -/
def pairChar (high low : Nat) : Char := .ofNat (0x10000 + (high - 0xd800) * 1024 + (low - 0xdc00))

/-- The character of a single unit; half of a pair stands for the replacement character. -/
def unitChar (u : Nat) : Char := if isHighUnit u || isLowUnit u then '\ufffd' else .ofNat u

/-- The character that a letter after a backslash stands for. -/
def escapedChar? : Char → Option Char
  | '"' => some '"'
  | '\\' => some '\\'
  | '/' => some '/'
  | 'b' => some '\x08'
  | 'f' => some '\x0c'
  | 'n' => some '\n'
  | 'r' => some '\r'
  | 't' => some '\t'
  | _ => none

/-- The character at the start of a text between quotes, and the rest; `none` within the option at
the closing quote. Control characters have to be escaped. -/
def readChar? : List Char → Option (Option Char × List Char)
  | '"' :: rest => some (none, rest)
  | '\\' :: 'u' :: a :: b :: c :: d :: rest => do
    let unit ← hexUnit? a b c d
    match rest with
    | '\\' :: 'u' :: a' :: b' :: c' :: d' :: rest' =>
      match hexUnit? a' b' c' d' with
      | some low =>
        if isHighUnit unit && isLowUnit low then some (some (pairChar unit low), rest')
        else some (some (unitChar unit), rest)
      | none => some (some (unitChar unit), rest)
    | _ => some (some (unitChar unit), rest)
  | '\\' :: c :: rest => (escapedChar? c).map fun c' => (some c', rest)
  | c :: rest => if c.toNat < 0x20 then none else some (some c, rest)
  | [] => none

/-- A text after its opening quote, and what follows its closing quote. -/
def readText? : (fuel : Nat) → List Char → Option (List Char × List Char)
  | 0, _ => none
  | fuel + 1, cs =>
    match readChar? cs with
    | none => none
    | some (none, rest) => some ([], rest)
    | some (some c, rest) => (readText? fuel rest).map fun (more, rest') => (c :: more, rest')

/-- The digits before the point: a single zero, or digits that start with none. -/
def readWhole? : List Char → Option (List Char × List Char)
  | '0' :: rest => some (['0'], rest)
  | cs =>
    if cs.takeWhile isAsciiDigit = [] then none
    else some (cs.takeWhile isAsciiDigit, cs.dropWhile isAsciiDigit)

/-- A point with digits after it, if the text starts with that. -/
def readFraction : List Char → List Char × List Char × List Char
  | '.' :: rest =>
    if rest.takeWhile isAsciiDigit = [] then ([], [], '.' :: rest)
    else (['.'], rest.takeWhile isAsciiDigit, rest.dropWhile isAsciiDigit)
  | cs => ([], [], cs)

/-- Why a text holds no value. -/
inductive ReadFault where
  /-- It is not written as one. -/
  | malformed
  /-- It holds a whole number with too many digits. -/
  | longNumber
  /-- It holds lists and objects that are nested too deeply. -/
  | tooDeep

/-- What a reader finds, where nothing means a malformed text. -/
def orMalformed {α : Type} (found : Option α) : Except ReadFault α :=
  found.elim (.error .malformed) .ok

/-- A number without its sign, and the rest of the text. -/
def readSize (negative : Bool) (cs : List Char) : Except ReadFault (Json × List Char) := do
  let (whole, rest) ← orMalformed (readWhole? cs)
  let (point, fraction, rest) := readFraction rest
  let (mark, scale, rest) := Literal.scanExponent rest
  if point = [] ∧ mark = [] then
    if maxIntDigits < whole.length then .error .longNumber
    else
      let n : Int := digitsValue whole
      return (.int (if negative then -n else n), rest)
  else
    let l : Literal := ⟨whole, point, fraction, mark, scale⟩
    return (.float (l.decimal.toFloat negative), rest)

/-- The values with a name of their own. -/
def names : List (String × Json) :=
  [("null", .null), ("true", .bool true), ("false", .bool false), ("NaN", .float (0.0 / 0.0)),
    ("Infinity", .float (1.0 / 0.0)), ("-Infinity", .float (-1.0 / 0.0))]

/-- What follows a name at the start of a text. -/
def afterName? (name : String) (cs : List Char) : Option (List Char) :=
  if name.toList.isPrefixOf cs then some (cs.drop name.length) else none

/-- A name or a number at the start of a text, and the rest. -/
def readAtom (cs : List Char) : Except ReadFault (Json × List Char) :=
  match names.findSome? fun (name, value) => (afterName? name cs).map (value, ·) with
  | some found => .ok found
  | none =>
    match cs with
    | '-' :: rest => readSize true rest
    | _ => readSize false cs

/-- The most lists and objects that are open at once. -/
def maxDepth : Nat := 988

mutual

/-- The value at the start of a text, and the rest, where `room` more lists and objects may be
opened. -/
def readValue : (fuel room : Nat) → List Char → Except ReadFault (Json × List Char)
  | 0, _, _ => .error .malformed
  | _ + 1, _, '"' :: rest => do
    let (s, rest) ← orMalformed (readText? (rest.length + 1) rest)
    return (.text (.ofList s), rest)
  | _ + 1, 0, '[' :: _ => .error .tooDeep
  | fuel + 1, room + 1, '[' :: rest =>
    match skipGap rest with
    | ']' :: rest => .ok (.list [], rest)
    | rest => do
      let (items, rest) ← readItems fuel room rest
      return (.list items, rest)
  | _ + 1, 0, '\x7b' :: _ => .error .tooDeep
  | fuel + 1, room + 1, '\x7b' :: rest =>
    match skipGap rest with
    | '\x7d' :: rest => .ok (.object [], rest)
    | rest => do
      let (members, rest) ← readMembers fuel room [] rest
      return (.object members, rest)
  | _ + 1, _, cs => readAtom cs

/-- The items of a list up to its closing bracket. -/
def readItems : (fuel room : Nat) → List Char → Except ReadFault (List Json × List Char)
  | 0, _, _ => .error .malformed
  | fuel + 1, room, cs => do
    let (item, rest) ← readValue fuel room cs
    match skipGap rest with
    | ']' :: rest => return ([item], rest)
    | ',' :: rest =>
      let (items, rest) ← readItems fuel room (skipGap rest)
      return (item :: items, rest)
    | _ => .error .malformed

/-- The members of an object up to its closing brace, after those already read. -/
def readMembers : (fuel room : Nat) → List (String × Json) → List Char →
    Except ReadFault (List (String × Json) × List Char)
  | 0, _, _, _ => .error .malformed
  | fuel + 1, room, members, '"' :: cs => do
    let (name, rest) ← orMalformed (readText? (cs.length + 1) cs)
    match skipGap rest with
    | ':' :: rest =>
      let (value, rest) ← readValue fuel room (skipGap rest)
      let members := setMember (.ofList name) value members
      match skipGap rest with
      | '\x7d' :: rest => return (members, rest)
      | ',' :: rest => readMembers fuel room members (skipGap rest)
      | _ => .error .malformed
    | _ => .error .malformed
  | _ + 1, _, _, _ => .error .malformed

end

/-- The value that a text holds. Every call of the reader takes a character or follows one that was
taken, so twice the length of the text bounds their depth. -/
def read (s : String) : Except ReadFault Json := do
  let cs := s.toList
  let (value, rest) ← readValue (2 * cs.length + 2) maxDepth (skipGap cs)
  if skipGap rest = [] then return value else .error .malformed

end EquationSolver.Json
