/-!
# JSON values

A value tree.  Whole numbers are kept apart from reals, so that a large one loses no digit.
The members of an object are a list of pairs; `Json.put` keeps such a list sorted by name, one
member a name.
-/

namespace FreeBody

/-- A whole number or a double. -/
inductive Json.Number
  | whole (n : Int)
  | real (x : Float)

/-- The double nearest to a number. -/
def Json.Number.toFloat : Json.Number → Float
  | .whole n => Float.ofInt n
  | .real x => x

/-- A JSON value. -/
inductive Json
  | null
  | bool (b : Bool)
  | number (n : Json.Number)
  | string (s : String)
  | array (items : List Json)
  | object (members : List (String × Json))

namespace Json

/-- `members`, sorted by name, with the value of `name` set. -/
def put (name : String) (value : Json) : List (String × Json) → List (String × Json)
  | [] => [(name, value)]
  | (n, v) :: rest =>
    if name < n then (name, value) :: (n, v) :: rest
    else if name = n then (name, value) :: rest
    else (n, v) :: put name value rest

/-- An object with the members that are present, in the order given. -/
def ofFields (fields : List (String × Option Json)) : Json :=
  .object (fields.filterMap fun f => f.2.map fun v => (f.1, v))

end Json

end FreeBody
