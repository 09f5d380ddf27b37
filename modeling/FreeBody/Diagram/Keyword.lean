import FreeBody.Geometry.Arrow

/-!
# Keywords

Kinds of points, forces and bodies, senses of rotation and units are written as single words.
In stored diagrams a word must be exact (`ofWord?`); elsewhere the letter case of ASCII letters
does not count (`read`).
-/

namespace FreeBody

/-- A finite type whose values have words. -/
class Keyword (α : Type) where
  all : List α
  word : α → String

/-- A word that names no value. -/
structure UnknownKeyword where
  text : String

def UnknownKeyword.message (e : UnknownKeyword) : String := "unknown keyword: " ++ e.text

namespace Keyword

variable {α : Type} [Keyword α]

/-- The value with this word. -/
def ofWord? (s : String) : Option α := (all : List α).find? fun a => word a == s

/-- The value with this word, in any case of the ASCII letters. -/
def read (s : String) : Except UnknownKeyword α :=
  match ofWord? (s.map Char.toLower) with
  | some a => .ok a
  | none => .error ⟨s⟩

end Keyword

/-- How a point is supported. -/
inductive PointKind
  | fixed
  | pivot
  | free
  deriving DecidableEq, Repr

instance : Keyword PointKind where
  all := [.fixed, .pivot, .free]
  word
    | .fixed => "fixed"
    | .pivot => "pivot"
    | .free => "free"

/-- What a force stands for; it decides the colour. -/
inductive ForceKind
  | normal
  | friction
  | tension
  | weight
  | applied
  | custom
  | component
  deriving DecidableEq, Repr

instance : Keyword ForceKind where
  all := [.normal, .friction, .tension, .weight, .applied, .custom, .component]
  word
    | .normal => "normal"
    | .friction => "friction"
    | .tension => "tension"
    | .weight => "weight"
    | .applied => "applied"
    | .custom => "custom"
    | .component => "component"

/-- The shape of a body. -/
inductive BodyKind
  | point
  | rectangle
  | circle
  | triangle
  | custom
  deriving DecidableEq, Repr

instance : Keyword BodyKind where
  all := [.point, .rectangle, .circle, .triangle, .custom]
  word
    | .point => "point"
    | .rectangle => "rectangle"
    | .circle => "circle"
    | .triangle => "triangle"
    | .custom => "custom"

instance : Keyword Rotation where
  all := [.cw, .ccw]
  word
    | .cw => "cw"
    | .ccw => "ccw"

instance : Keyword Units where
  all := [.auto, .pixels]
  word
    | .auto => "auto"
    | .pixels => "pixels"

end FreeBody
