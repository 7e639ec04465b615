/-!
# JSON values

A value of the data format that systems are stored in. Whole numbers are kept apart from doubles,
because they are written differently.

## Main definitions

* `Json`: a value
* `Json.member?`: the member of an object
-/

namespace EquationSolver

/-- A JSON value. The members of an object are in the order of their first appearance. -/
inductive Json where
  | null
  | bool (b : Bool)
  | int (n : Int)
  | float (x : Float)
  | text (s : String)
  | list (items : List Json)
  | object (members : List (String × Json))
  deriving Inhabited

namespace Json

/-- The members with one more: a member of the same name is replaced where it stands. -/
def setMember (name : String) (value : Json) : List (String × Json) → List (String × Json)
  | [] => [(name, value)]
  | (key, old) :: rest =>
    if key = name then (key, value) :: rest else (key, old) :: setMember name value rest

/-- The member of an object with the given name. -/
def member? (name : String) : Json → Option Json
  | object members => members.lookup name
  | _ => none

end Json

end EquationSolver
