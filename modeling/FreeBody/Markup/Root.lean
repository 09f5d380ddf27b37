import FreeBody.Text.Blank
import FreeBody.Text.Pieces

/-!
# The content of a finished picture

To put one picture into another, its declaration and its root element are taken off.  The root's
opening tag ends at the first `>`.  Markup that does not begin with a root is left as it is, but
for the blanks around it.
-/

namespace FreeBody.Markup

/-- What follows the first occurrence of `mark` in `s`. -/
def afterFirst? (mark : List Char) : List Char → Option (List Char)
  | [] => if mark.isEmpty then some [] else none
  | c :: rest =>
    match Text.dropPrefix? mark (c :: rest) with
    | some after => some after
    | none => afterFirst? mark rest

/-- `s` without the text `ending` at its end, if it is there. -/
def dropEnding (ending s : List Char) : List Char :=
  if ending.isSuffixOf s then s.take (s.length - ending.length) else s

/-- `s` behind its declaration, if it begins with one. -/
def dropDeclaration (s : List Char) : List Char :=
  if "<?xml".toList.isPrefixOf s then
    match afterFirst? "?>".toList s with
    | some after => Text.trimStart after
    | none => s
  else s

/-- What a picture holds inside its root element. -/
def rootContent (markup : List Char) : List Char :=
  let s := dropDeclaration (Text.trim markup)
  if "<svg".toList.isPrefixOf s then
    let opening := s.takeWhile (· != '>')
    match s.dropWhile (· != '>') with
    | [] => s
    | _ :: inner =>
      if opening.getLast? = some '/' then []
      else Text.trim (dropEnding "</svg>".toList inner)
  else s

/-- What a picture holds inside its root element. -/
def stripRoot (markup : String) : String := String.ofList (rootContent markup.toList)

end FreeBody.Markup
