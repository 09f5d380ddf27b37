import FreeBody.Json.Draft

/-!
# Whole JSON values

A draft without a fault is a value.  Nesting is limited, members are sorted by name, and of
members with one name the last stays.
-/

namespace FreeBody.Json

/-- How many arrays and objects may enclose a value. -/
def maxDepth : Nat := 127

mutual

/-- The value of a draft that may still open `depth` levels. -/
def Draft.toValue? (depth : Nat) : Draft → Option Json
  | .null => some .null
  | .bool b => some (.bool b)
  | .number (.value n) => some (.number n)
  | .string (.value s) => some (.string s)
  | .array items none => if depth = 0 then none else (toItems? (depth - 1) items).map .array
  | .object members none =>
    if depth = 0 then none else (toMembers? (depth - 1) [] members).map .object
  | _ => none

/-- The values of the items of an array. -/
def toItems? (depth : Nat) : List Draft → Option (List Json)
  | [] => some []
  | d :: rest =>
    match d.toValue? depth with
    | some v => (toItems? depth rest).map (v :: ·)
    | none => none

/-- The members of an object, put among those already `sorted`. -/
def toMembers? (depth : Nat) (sorted : List (String × Json)) :
    List (Scalar String × Draft) → Option (List (String × Json))
  | [] => some sorted
  | (.value name, d) :: rest =>
    match d.toValue? depth with
    | some v => toMembers? depth (put name v sorted) rest
    | none => none
  | (.broken .., _) :: _ => none

end

/-- The value that makes up all of `s`. -/
def parse? (s : List Char) : Option Json :=
  match draft s with
  | (d, some rest) => if (Text.skipSpaces rest).isEmpty then d.toValue? maxDepth else none
  | (_, none) => none

end FreeBody.Json
