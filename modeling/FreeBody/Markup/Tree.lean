import FreeBody.Markup.Entity
import FreeBody.Text.Blank
import FreeBody.Text.Pieces

/-!
# Markup trees

Pictures are trees of elements.  `Node.lines` lays a tree out, one line a tag, two blanks a
level; `Node.text` joins the lines.  Attribute values and characters are escaped on the way out,
so a tree holds plain text.  `verbatim` takes markup that was laid out before.
-/

namespace FreeBody.Markup

/-- An element name with attributes in order. -/
structure Tag where
  name : String
  attributes : List (String × String)

/-- Whether text is lowered or raised. -/
inductive Shift
  | sub
  | super
  deriving DecidableEq, Repr

/-- A piece of the text in an element. -/
inductive Run
  | char (c : Char)
  | shifted (shift : Shift) (content : List Run)

/-- A part of a picture. -/
inductive Node
  /-- An element with its children on lines of their own. -/
  | group (tag : Tag) (children : List Node)
  /-- An element without content. -/
  | leaf (tag : Tag)
  /-- An element with text, on one line. -/
  | line (tag : Tag) (content : List Run)
  /-- Finished markup, line by line. -/
  | verbatim (markup : String)

/-! ## Text -/

/-- The value of the attribute for a shift. -/
def Shift.word : Shift → String
  | sub => "sub"
  | super => "super"

/-- The opening tag of shifted text. -/
def Shift.opening (s : Shift) : String :=
  "<tspan baseline-shift=\"" ++ s.word ++ "\" font-size=\"0.7em\">"

mutual

/-- The markup of a run. -/
def Run.text : Run → String
  | .char c => String.ofList ((textEntity? c).getD [c])
  | .shifted shift content => shift.opening ++ runsText content ++ "</tspan>"

/-- The markup of a piece of text. -/
def runsText : List Run → String
  | [] => ""
  | r :: rest => r.text ++ runsText rest

end

/-- Plain text as runs. -/
def plainRuns (s : String) : List Run := s.toList.map .char

/-- Plain text is escaped. -/
theorem runsText_plainRuns (s : String) : runsText (plainRuns s) = escapeText s := by
  have go (cs : List Char) :
      runsText (cs.map .char) =
        String.ofList (cs.flatMap fun c => (textEntity? c).getD [c]) := by
    induction cs with
    | nil => rfl
    | cons c rest ih => simp [runsText, Run.text, ih, String.ofList_append]
  rw [plainRuns, go, escapeText_eq, escape_eq_flatMap]

/-! ## Elements -/

/-- The attributes as they stand in a tag. -/
def attributesText (attributes : List (String × String)) : String :=
  String.join (attributes.map fun a => " " ++ a.1 ++ "=\"" ++ escapeValue a.2 ++ "\"")

namespace Tag

/-- The tag that begins an element. -/
def opening (t : Tag) : String := "<" ++ t.name ++ attributesText t.attributes ++ ">"

/-- The tag of an element without content. -/
def closed (t : Tag) : String := "<" ++ t.name ++ attributesText t.attributes ++ "/>"

/-- The tag that ends an element. -/
def closing (t : Tag) : String := "</" ++ t.name ++ ">"

end Tag

/-- The lines of finished markup that are not blank, without the blanks at their ends. -/
def verbatimLines (markup : String) : List String :=
  (((Text.lines markup.toList).map Text.trimEnd).filter (!·.isEmpty)).map String.ofList

/-- `s` moved in by `depth` levels. -/
def indented (depth : Nat) (s : String) : String :=
  String.ofList (List.replicate (2 * depth) ' ') ++ s

mutual

/-- The lines of a tree, its own tag `depth` levels in. -/
def Node.lines (depth : Nat) : Node → List String
  | .group tag children =>
    indented depth tag.opening :: nodesLines (depth + 1) children ++
      [indented depth tag.closing]
  | .leaf tag => [indented depth tag.closed]
  | .line tag content => [indented depth (tag.opening ++ runsText content ++ tag.closing)]
  | .verbatim markup => (verbatimLines markup).map (indented depth)

/-- The lines of a list of trees. -/
def nodesLines (depth : Nat) : List Node → List String
  | [] => []
  | n :: rest => n.lines depth ++ nodesLines depth rest

end

/-- The markup of a list of trees. -/
def nodesText (nodes : List Node) : String :=
  String.join ((nodesLines 0 nodes).map (· ++ "\n"))

/-- The markup of a tree. -/
def Node.text (n : Node) : String := nodesText [n]

end FreeBody.Markup
