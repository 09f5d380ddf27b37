import FreeBody.Drawing.Picture

/-!
# Building diagrams

A builder is a diagram in the making; each step adds an element or sets a property.  `build`
finishes it with a picture, unless one was supplied; it has no result if the drawing of the grid
never ends.  Where the grid is known to end, `finish` builds the same diagram.
-/

namespace FreeBody

/-- A diagram in the making. -/
structure Builder where
  diagram : Diagram

namespace Builder

/-- An empty canvas with axes and no grid. -/
def ofSize (id : String) (width height : Float) : Builder :=
  ⟨{ id, width, height, showAxes := some true, showGrid := some false }⟩

/-- An empty canvas of the usual size. -/
def empty (id : String) : Builder := ofSize id 600 400

/-- Adds a point that is supported. -/
def addSupport (b : Builder) (id : String) (x y : Float) (label : Option String)
    (kind : PointKind) : Builder :=
  ⟨{ b.diagram with points := b.diagram.points ++ [⟨id, x, y, label, kind⟩] }⟩

/-- Adds a free point. -/
def addPoint (b : Builder) (id : String) (x y : Float) (label : Option String) : Builder :=
  b.addSupport id x y label .free

def pushForce (b : Builder) (f : Force) : Builder :=
  ⟨{ b.diagram with forces := b.diagram.forces ++ [f] }⟩

def addForce (b : Builder) (id point : String) (magnitude angle : Float) (label : String)
    (kind : Option ForceKind) : Builder :=
  b.pushForce (.plain id point magnitude angle label kind)

def addMoment (b : Builder) (id point : String) (magnitude : Float) (direction : Rotation)
    (label : String) : Builder :=
  ⟨{ b.diagram with
    moments := b.diagram.moments ++ [⟨id, point, magnitude, direction, label, none⟩] }⟩

/-- Sets the single body. -/
def setBody (b : Builder) (body : Body) : Builder := ⟨{ b.diagram with body := some body }⟩

/-- Adds a further body. -/
def addBody (b : Builder) (body : Body) : Builder :=
  ⟨{ b.diagram with bodies := b.diagram.bodies ++ [body] }⟩

def showAxes (b : Builder) (on : Bool) : Builder := ⟨{ b.diagram with showAxes := some on }⟩

def showGrid (b : Builder) (on : Bool) : Builder := ⟨{ b.diagram with showGrid := some on }⟩

def showAngles (b : Builder) (on : Bool) : Builder := ⟨{ b.diagram with showAngles := some on }⟩

def backgroundColor (b : Builder) (color : String) : Builder :=
  ⟨{ b.diagram with backgroundColor := some color }⟩

def backgroundMarkup (b : Builder) (markup : String) : Builder :=
  ⟨{ b.diagram with backgroundMarkup := some markup }⟩

/-- Supplies the finished picture. -/
def renderedMarkup (b : Builder) (markup : String) : Builder :=
  ⟨{ b.diagram with renderedMarkup := some markup }⟩

/-- The finished diagram, drawn in the given style unless a picture was supplied. -/
def buildWith (b : Builder) (style : Style) : Option Diagram :=
  match b.diagram.renderedMarkup with
  | some _ => some b.diagram
  | none =>
    (b.diagram.render style).map fun markup => { b.diagram with renderedMarkup := some markup }

/-- The finished diagram, drawn in the default style unless a picture was supplied. -/
def build (b : Builder) : Option Diagram := b.buildWith {}

/-- The finished diagram of a builder whose grid ends. -/
def finish (b : Builder) (h : b.diagram.GridEnds {}) : Diagram := b.diagram.finished h

theorem build_eq_some_finish (b : Builder) (h : b.diagram.GridEnds {}) :
    b.build = some (b.finish h) := by
  obtain ⟨d⟩ := b
  cases hsupplied : d.renderedMarkup with
  | some picture =>
    rw [finish, Diagram.finished_eq (Diagram.markup_of_supplied hsupplied), build, buildWith,
      hsupplied]
    exact congrArg (fun m => some { d with renderedMarkup := m }) hsupplied
  | none =>
    obtain ⟨picture, hpicture⟩ := Option.isSome_iff_exists.1 (Diagram.render_isSome_iff.2 h)
    have hmarkup : d.markup = some picture := (Diagram.markup_of_none hsupplied).trans hpicture
    rw [finish, Diagram.finished_eq hmarkup, build, buildWith, hsupplied, hpicture]
    rfl

end Builder

/-- A force of a diagram with one point. -/
structure PlainForce where
  magnitude : Float
  angle : Float
  label : String
  kind : Option ForceKind

/-- A diagram with one point, called `center` and labelled `O`, and forces `f1`, `f2`, … -/
def Diagram.simple (id : String) (x y : Float) (forces : List PlainForce) : Option Diagram :=
  let start := (Builder.empty id).addPoint "center" x y (some "O")
  (forces.zipIdx.foldl
    (fun b (f, i) =>
      b.addForce ("f" ++ toString (i + 1)) "center" f.magnitude f.angle f.label f.kind)
    start).build

end FreeBody
