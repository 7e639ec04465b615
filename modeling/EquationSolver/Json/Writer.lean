import EquationSolver.Decimal.Format
import EquationSolver.Json.Value
import EquationSolver.Text.Quoted

/-!
# Writing JSON

A value is written on one line, or with one item on a line and two spaces of indent for each level.
Characters outside the printable ASCII range are written by their units of sixteen bits. The module
also has the form in which a value is shown in messages.

## Main definitions

* `Json.compact`, `Json.pretty`: a value on one line and on indented lines
* `Json.shown`: a value as messages show it
-/

namespace EquationSolver.Json

/-- The units of sixteen bits that encode a character. -/
def units16 (c : Char) : List Nat :=
  if c.toNat < 0x10000 then [c.toNat]
  else [0xd800 + (c.toNat - 0x10000) / 1024, 0xdc00 + (c.toNat - 0x10000) % 1024]

/-- One character of a text. -/
def writeChar (c : Char) : List Char :=
  match c with
  | '"' => ['\\', '"']
  | '\\' => ['\\', '\\']
  | '\n' => ['\\', 'n']
  | '\r' => ['\\', 'r']
  | '\t' => ['\\', 't']
  | '\x08' => ['\\', 'b']
  | '\x0c' => ['\\', 'f']
  | c =>
    if 0x20 ≤ c.toNat ∧ c.toNat < 0x7f then [c]
    else (units16 c).flatMap fun u => '\\' :: 'u' :: Text.hexDigits 4 u

/-- A text between quotes. -/
def writeText (s : String) : String := .ofList ('"' :: s.toList.flatMap writeChar ++ ['"'])

/-- A double with its shortest digits, or the name of a special value. -/
def writeFloat (x : Float) : String :=
  match shortestText x with
  | "nan" => "NaN"
  | "inf" => "Infinity"
  | "-inf" => "-Infinity"
  | digits => digits

/-- The line break in front of an item at a level of indent. -/
def lineBreak (level : Nat) : String := .ofList ('\n' :: .replicate (2 * level) ' ')

/-- Items between brackets. Those of `pretty` stand on lines of their own. -/
def bracket (opening closing : String) (separator start finish : String) (items : List String) :
    String :=
  if items.isEmpty then opening ++ closing
  else opening ++ start ++ separator.intercalate items ++ finish ++ closing

mutual

/-- The value on one line. -/
def compact : Json → String
  | null => "null"
  | bool b => if b then "true" else "false"
  | int n => toString n
  | float x => writeFloat x
  | text s => writeText s
  | list items => bracket "[" "]" ", " "" "" (compactItems items)
  | object members => bracket "\x7b" "\x7d" ", " "" "" (compactMembers members)

@[inherit_doc compact]
def compactItems : List Json → List String
  | [] => []
  | item :: rest => compact item :: compactItems rest

@[inherit_doc compact]
def compactMembers : List (String × Json) → List String
  | [] => []
  | (name, value) :: rest => (writeText name ++ ": " ++ compact value) :: compactMembers rest

end

mutual

/-- The value with one item on a line, from the given level of indent on. -/
def pretty (level : Nat) : Json → String
  | list items =>
    bracket "[" "]" ("," ++ lineBreak (level + 1)) (lineBreak (level + 1)) (lineBreak level)
      (prettyItems level items)
  | object members =>
    bracket "\x7b" "\x7d" ("," ++ lineBreak (level + 1)) (lineBreak (level + 1)) (lineBreak level)
      (prettyMembers level members)
  | value => compact value

@[inherit_doc pretty]
def prettyItems (level : Nat) : List Json → List String
  | [] => []
  | item :: rest => pretty (level + 1) item :: prettyItems level rest

@[inherit_doc pretty]
def prettyMembers (level : Nat) : List (String × Json) → List String
  | [] => []
  | (name, value) :: rest =>
    (writeText name ++ ": " ++ pretty (level + 1) value) :: prettyMembers level rest

end

mutual

/-- The value as messages show it. -/
def shown : Json → String
  | null => "None"
  | bool b => if b then "True" else "False"
  | int n => toString n
  | float x => shortestText x
  | text s => Text.quote s
  | list items => bracket "[" "]" ", " "" "" (shownItems items)
  | object members => bracket "\x7b" "\x7d" ", " "" "" (shownMembers members)

@[inherit_doc shown]
def shownItems : List Json → List String
  | [] => []
  | item :: rest => shown item :: shownItems rest

@[inherit_doc shown]
def shownMembers : List (String × Json) → List String
  | [] => []
  | (name, value) :: rest => (Text.quote name ++ ": " ++ shown value) :: shownMembers rest

end

end EquationSolver.Json
