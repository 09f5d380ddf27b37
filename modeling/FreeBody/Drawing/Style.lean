import FreeBody.Diagram.Basic
import FreeBody.Markup.Scope

/-!
# Drawing style

The colours and sizes that a drawing uses where the diagram leaves the choice open, and the names
by which parts of one picture refer to each other.  Such names begin with the diagram's id.
-/

namespace FreeBody

/-- The colour of a force of each kind. -/
structure Palette where
  weight : String := "#3B82F6"
  normal : String := "#10B981"
  friction : String := "#EF4444"
  tension : String := "#8B5CF6"
  applied : String := "#F59E0B"
  custom : String := "#6B7280"
  component : String := "#9CA3AF"

/-- The colour of a kind. -/
def Palette.color (p : Palette) : ForceKind → String
  | .weight => p.weight
  | .normal => p.normal
  | .friction => p.friction
  | .tension => p.tension
  | .applied => p.applied
  | .custom => p.custom
  | .component => p.component

/-- The colours and sizes of a drawing. -/
structure Style where
  palette : Palette := {}
  axesColor : String := "#374151"
  gridColor : String := "#E5E7EB"
  momentColor : String := "#8B5CF6"
  pointColor : String := "#374151"
  angleColor : String := "#6B7280"
  /-- The fill of bodies without one of their own; the gradient of the picture if absent. -/
  bodyFill : Option String := none
  bodyStroke : String := "#374151"
  gridSpacing : Float := 20
  arrowWidth : Float := 2.5
  arrowHeadSize : Float := 10
  units : Units := .auto

/-- The id of the arrow marker of a picture. -/
def markerId (id : String) : String := id ++ "-arrow"

/-- The id of the body gradient of a picture. -/
def gradientId (id : String) : String := id ++ "-body-fill"

/-- A reference to the definition called `id`. -/
def reference (id : String) : String := "url(#" ++ id ++ ")"

namespace Style

/-- The colour of a force: its own, else that of its kind; without a kind it is an applied one. -/
def forceColor (s : Style) (f : Force) : String :=
  f.color.getD (s.palette.color (f.kind.getD .applied))

/-- The units of a force: its own, else those of the style. -/
def forceUnits (s : Style) (f : Force) : Units := f.units.getD s.units

/-- The fill of a body in the picture of the diagram `id`. -/
def fillOf (s : Style) (id : String) (b : Body) : String :=
  b.fill.getD (s.bodyFill.getD (reference (gradientId id)))

/-- The outline of a body: its own, else that of the style. -/
def strokeOf (s : Style) (b : Body) : String := b.stroke.getD s.bodyStroke

end Style

end FreeBody
