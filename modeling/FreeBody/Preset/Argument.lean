import FreeBody.Json.Literal
import FreeBody.Json.Writer
import FreeBody.Text.Pieces

/-!
# Preset arguments

The arguments of a preset stand between commas; a comma inside brackets or braces does not
separate.  Each piece is read as a truth value, a number, a literal in brackets or braces, a
quoted text or else as plain text, the first that fits.
-/

namespace FreeBody

/-- An argument of a preset call. -/
inductive Argument
  | bool (b : Bool)
  | number (x : Float)
  | text (s : String)
  | literal (v : Json)

namespace Argument

/-! ## Reading -/

/-- The number that makes up all of `s`, if it is finite. -/
def finite? (s : List Char) : Option Float := (Decimal.read? s).filter (·.isFinite)

/-- Whether `s` holds a letter that no number has. -/
def hasWordLetter (s : List Char) : Bool :=
  s.any fun c => c.isAlpha && c != 'e' && c != 'E'

/-- Whether `s` begins with `opening` and ends with `closing`. -/
def isBetween (opening closing : Char) (s : List Char) : Bool :=
  s.head? == some opening && s.getLast? == some closing

/-- The literal in `s`, where single quotes count as double ones. -/
def literal? (s : List Char) : Option Json :=
  if isBetween '[' ']' s || isBetween '{' '}' s then
    Json.parse? (Text.replaceChar '\'' ['"'] s)
  else none

/-- What stands between the quotes of `s`. -/
def unquoted? (s : List Char) : Option (List Char) :=
  if 2 ≤ s.length && (isBetween '"' '"' s || isBetween '\'' '\'' s) then some s.tail.dropLast
  else none

/-- The argument written as `s`. -/
def read (s : List Char) : Argument :=
  if s = "true".toList then .bool true
  else if s = "false".toList then .bool false
  else
    match if hasWordLetter s then none else finite? s with
    | some x => .number x
    | none =>
      match literal? s with
      | some v => .literal v
      | none =>
        if isBetween '[' ']' s || isBetween '{' '}' s then .text (String.ofList s)
        else .text (String.ofList ((unquoted? s).getD s))

/-- How far a character leads into brackets and braces. -/
def nesting : Char → Int
  | '[' | '{' => 1
  | ']' | '}' => -1
  | _ => 0

/-- The pieces of `s` between the commas outside brackets and braces, `depth` of which are open
before it.  The depth has no bounds.  Where it is kept in 32 bits, the pieces are the same as long as
there are fewer than 2^31 open brackets, or closed ones that nothing opens, at any one place. -/
def split (depth : Int) : List Char → List (List Char)
  | [] => [[]]
  | c :: rest =>
    if c = ',' ∧ depth = 0 then [] :: split depth rest
    else
      match split (depth + nesting c) rest with
      | first :: others => (c :: first) :: others
      | [] => [[c]]

/-- The arguments of the pieces between commas.  The last piece counts only if it is not
blank. -/
def ofPieces : List (List Char) → List Argument
  | [] => []
  | [last] => if (Text.trim last).isEmpty then [] else [read (Text.trim last)]
  | piece :: others => read (Text.trim piece) :: ofPieces others

/-- The arguments written as `s`. -/
def readAll (s : List Char) : List Argument := ofPieces (split 0 s)

/-! ## Values -/

/-- The number that an argument gives; a text may spell one. -/
def toFloat? : Argument → Option Float
  | number x => some x
  | text s => finite? (Text.trim s.toList)
  | literal (.number n) => some n.toFloat
  | _ => none

/-- The truth value that an argument gives; a text may spell one. -/
def toBool? : Argument → Option Bool
  | bool b => some b
  | text "true" => some true
  | text "false" => some false
  | _ => none

/-- The text that an argument gives. -/
def toText? : Argument → Option String
  | text s => some s
  | _ => none

/-- The written form of an argument. -/
def display : Argument → String
  | bool b => if b then "true" else "false"
  | number x => Decimal.plain x
  | text s => s
  | literal v => v.compact

end Argument

end FreeBody
