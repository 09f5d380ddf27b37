/-!
# Cutting text into pieces

`pieces` cuts at every occurrence of a separator and keeps empty pieces; `lines` cuts into
lines, where a line feed ends a line and a carriage return before it belongs to the line end.
-/

namespace FreeBody.Text

/-- The pieces of `s` between the occurrences of `separator`; one more than there are
separators. -/
def pieces (separator : Char) : List Char → List (List Char)
  | [] => [[]]
  | c :: rest =>
    if c = separator then [] :: pieces separator rest
    else
      match pieces separator rest with
      | first :: others => (c :: first) :: others
      | [] => [[c]]

/-- `line` without a carriage return at its end. -/
def dropReturn (line : List Char) : List Char :=
  if line.getLast? = some '\r' then line.dropLast else line

/-- The lines of `s`; an end of line after the last one does not begin another. -/
def lines (s : List Char) : List (List Char) :=
  let cut := pieces '\n' s
  cut.dropLast.map dropReturn ++ cut.getLast?.toList.filter (!·.isEmpty)

/-- `s` with every occurrence of the character `old` replaced by `new`. -/
def replaceChar (old : Char) (new : List Char) (s : List Char) : List Char :=
  s.flatMap fun c => if c = old then new else [c]

/-- Whether `start` is the beginning of `s`; the rest of `s` if so. -/
def dropPrefix? (start s : List Char) : Option (List Char) :=
  if start.isPrefixOf s then some (s.drop start.length) else none

end FreeBody.Text
