import FreeBody.Json.Real

/-!
# JSON text

`compact` writes a value without blanks; `pretty` writes each item and member on a line of its
own, two blanks a level.  In strings, quotes, backslashes and control characters are escaped.
-/

namespace FreeBody.Json

/-- The form of `c` inside a string. -/
def stringChar (c : Char) : List Char :=
  if c = '"' then ['\\', '"']
  else if c = '\\' then ['\\', '\\']
  else if c = '\n' then ['\\', 'n']
  else if c = '\r' then ['\\', 'r']
  else if c = '\t' then ['\\', 't']
  else if c = '\x08' then ['\\', 'b']
  else if c = '\x0c' then ['\\', 'f']
  else if c.toNat < 32 then
    ['\\', 'u', '0', '0'] ++ Decimal.padZeros 2 (Nat.toDigits 16 c.toNat)
  else [c]

/-- A string in double quotes. -/
def stringText (s : String) : String :=
  String.ofList ('"' :: s.toList.flatMap stringChar ++ ['"'])

mutual

/-- The text of a value without blanks. -/
def compact : Json → String
  | null => "null"
  | bool b => if b then "true" else "false"
  | number n => n.text
  | string s => stringText s
  | array items => "[" ++ String.intercalate "," (compactItems items) ++ "]"
  | object members => "\x7b" ++ String.intercalate "," (compactMembers members) ++ "\x7d"

/-- The texts of the items of an array. -/
def compactItems : List Json → List String
  | [] => []
  | v :: rest => compact v :: compactItems rest

/-- The texts of the members of an object. -/
def compactMembers : List (String × Json) → List String
  | [] => []
  | (name, v) :: rest => (stringText name ++ ":" ++ compact v) :: compactMembers rest

end

/-- The start of a line `depth` levels in. -/
def newLine (depth : Nat) : String := "\n" ++ String.ofList (List.replicate (2 * depth) ' ')

/-- Entries between brackets, one a line; an empty list stays on the line. -/
def layOut (opening closing : String) (depth : Nat) (entries : List String) : String :=
  if entries.isEmpty then opening ++ closing
  else
    opening ++ newLine (depth + 1) ++ String.intercalate ("," ++ newLine (depth + 1)) entries ++
      newLine depth ++ closing

mutual

/-- The text of a value over several lines, the first one `depth` levels in. -/
def prettyAt (depth : Nat) : Json → String
  | array items => layOut "[" "]" depth (prettyItems (depth + 1) items)
  | object members => layOut "\x7b" "\x7d" depth (prettyMembers (depth + 1) members)
  | v => compact v

/-- The texts of items that stand `depth` levels in. -/
def prettyItems (depth : Nat) : List Json → List String
  | [] => []
  | v :: rest => prettyAt depth v :: prettyItems depth rest

/-- The texts of members that stand `depth` levels in. -/
def prettyMembers (depth : Nat) : List (String × Json) → List String
  | [] => []
  | (name, v) :: rest =>
    (stringText name ++ ": " ++ prettyAt depth v) :: prettyMembers depth rest

end

/-- The text of a value over several lines. -/
def pretty (v : Json) : String := prettyAt 0 v

end FreeBody.Json
