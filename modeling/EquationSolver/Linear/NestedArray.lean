import EquationSolver.Decimal.Numeral
import EquationSolver.Json.Value
import EquationSolver.Linear.Dense
import EquationSolver.Text.Quoted

/-!
# Arrays from nested lists

A number, a list of numbers, a list of lists and so on make an array: its shape is the lengths of
the lists at each depth, which have to agree, and its entries are the numbers from left to right. A
cell may also hold a truth value, the text of a number, or nothing.

## Main definitions

* `NestedArray`, `NestedArray.ofJson`: an array, and the array that a value makes
* `ArrayFault`: why a value makes no array
* `NestedArray.toDense`, `NestedArray.toVector`: an array as a matrix and as a vector
-/

namespace EquationSolver.Linear

/-- Why a value makes no array. -/
inductive ArrayFault where
  /-- The lists below the given common shape differ in length or depth. -/
  | ragged (shape : List Nat)
  /-- The lists are nested more deeply than arrays are. -/
  | tooDeep
  /-- A text is not the text of a number. -/
  | badText (text : String)
  /-- A whole number is beyond the range of doubles. -/
  | tooLarge
  /-- A cell holds an object. -/
  | badCell

/-- The most dimensions that an array has. -/
def maxDimensions : Nat := 64

/-- A shape in parentheses; a single length is followed by a comma. -/
def shapeText : List Nat → String
  | [] => "()"
  | [n] => "(" ++ toString n ++ ",)"
  | lengths => "(" ++ ", ".intercalate (lengths.map toString) ++ ")"

/-- The message of a fault. -/
def ArrayFault.message : ArrayFault → String
  | ragged shape =>
    "setting an array element with a sequence. The requested array has an inhomogeneous shape "
      ++ "after " ++ toString shape.length ++ " dimensions. The detected shape was "
      ++ shapeText shape ++ " + inhomogeneous part."
  | tooDeep =>
    "setting an array element with a sequence. The requested array would exceed the maximum number "
      ++ "of dimension of " ++ toString maxDimensions ++ "."
  | badText text => "could not convert string to float: " ++ Text.quote text
  | tooLarge => "int too large to convert to float"
  | badCell => "float() argument must be a string or a real number, not 'dict'"

/-- The number that a cell holds. -/
def cellValue : Json → Except ArrayFault Float
  | .null => .ok (0.0 / 0.0)
  | .bool b => .ok (if b then 1.0 else 0.0)
  | .int n =>
    let x := Decimal.toFloat (n < 0) ⟨n.natAbs, 0⟩
    if x.isFinite then .ok x else .error .tooLarge
  | .float x => .ok x
  | .text s =>
    match readFloat? s with
    | some x => .ok x
    | none => .error (.badText s)
  | .list _ => .error (.ragged [])
  | .object _ => .error .badCell

/-- The items of a value that is a list. -/
def items? : Json → Option (List Json)
  | .list items => some items
  | _ => none

/-- What the lists at one depth come to. -/
inductive Layer where
  /-- None of the values is a list. -/
  | cells
  /-- All of them are lists of the same length, with the items given in order. -/
  | lists (length : Nat) (items : List Json)
  /-- They differ. -/
  | mixed

/-- What the values at one depth come to. -/
def layer (values : List Json) : Layer :=
  let lists := values.filterMap items?
  match lists with
  | [] => .cells
  | first :: _ =>
    if lists.length = values.length && lists.all (fun l => l.length == first.length) then
      .lists first.length lists.flatten
    else .mixed

/-- An array of doubles. -/
structure NestedArray where
  /-- The lengths at each depth. -/
  shape : List Nat
  /-- The entries, from left to right. -/
  entries : List Float

namespace NestedArray

/-- The array whose outer lengths are `shape`, the last of them first, and whose values at the next
depth are given. It may have `room` dimensions more. -/
def ofLayers : (room : Nat) → (shape : List Nat) → List Json → Except ArrayFault NestedArray
  | 0, shape, values =>
    match layer values with
    | .cells => (values.mapM cellValue).map (⟨shape.reverse, ·⟩)
    | _ => .error .tooDeep
  | room + 1, shape, values =>
    match layer values with
    | .cells => (values.mapM cellValue).map (⟨shape.reverse, ·⟩)
    | .lists length items => ofLayers room (length :: shape) items
    | .mixed => .error (.ragged shape.reverse)

/-- The array that a value makes. -/
def ofJson (j : Json) : Except ArrayFault NestedArray := ofLayers maxDimensions [] [j]

/-- The entries as a vector of the given size. -/
def toVector (a : NestedArray) (n : Nat) : Vector Float n :=
  let entries := a.entries.toArray
  .ofFn fun i => entries.getD i 0.0

/-- The entries as a matrix of the given size, row by row. -/
def toDense (a : NestedArray) (m n : Nat) : Dense Float m n :=
  let entries := a.entries.toArray
  .of fun i j => entries.getD (i * n + j) 0.0

end NestedArray

end EquationSolver.Linear
