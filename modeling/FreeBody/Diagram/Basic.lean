import FreeBody.Diagram.Keyword

/-!
# Diagrams

A diagram is a canvas with points, forces and moments that act at points, and bodies.  Forces
and moments name their point; whether the name resolves is checked separately.
-/

namespace FreeBody

/-- A place on the canvas where forces and moments act. -/
structure Point where
  id : String
  x : Float
  y : Float
  label : Option String
  kind : PointKind
  deriving BEq

/-- A force at the point called `point`, `angle` in degrees. -/
structure Force where
  id : String
  point : String
  magnitude : Float
  angle : Float
  label : String
  kind : Option ForceKind
  color : Option String
  units : Option Units
  deriving BEq

/-- A turning moment at the point called `point`. -/
structure Moment where
  id : String
  point : String
  magnitude : Float
  direction : Rotation
  label : String
  radius : Option Float
  deriving BEq

/-- The object that forces act on, around its centre; `angle` turns it counter-clockwise. -/
structure Body where
  kind : BodyKind
  x : Float
  y : Float
  width : Option Float := none
  height : Option Float := none
  radius : Option Float := none
  points : Option (List Vec) := none
  fill : Option String := none
  stroke : Option String := none
  angle : Option Float := none
  deriving BEq

/-- A figure.  `backgroundMarkup` is drawn beneath the bodies; `renderedMarkup` is the finished
picture, once there is one. -/
structure Diagram where
  id : String
  width : Float
  height : Float
  points : List Point := []
  forces : List Force := []
  moments : List Moment := []
  body : Option Body := none
  bodies : List Body := []
  showAxes : Option Bool := none
  showGrid : Option Bool := none
  showAngles : Option Bool := none
  backgroundColor : Option String := none
  backgroundMarkup : Option String := none
  renderedMarkup : Option String := none
  deriving BEq

/-- A force with nothing but its kind set. -/
def Force.plain (id point : String) (magnitude angle : Float) (label : String)
    (kind : Option ForceKind) : Force :=
  ⟨id, point, magnitude, angle, label, kind, none, none⟩

def Point.position (p : Point) : Vec := ⟨p.x, p.y⟩

def Body.center (b : Body) : Vec := ⟨b.x, b.y⟩

def Body.rectangle (x y width height : Float) : Body :=
  { kind := .rectangle, x, y, width := some width, height := some height }

def Body.circle (x y radius : Float) : Body := { kind := .circle, x, y, radius := some radius }

namespace Diagram

/-- The first point called `id`. -/
def point? (d : Diagram) (id : String) : Option Point := d.points.find? fun p => p.id == id

/-- The single body, if any, and the further ones. -/
def allBodies (d : Diagram) : List Body := d.body.toList ++ d.bodies

end Diagram

end FreeBody
