import FreeBody.Diagram.Basic
import FreeBody.Json.Record

/-!
# Stored diagrams

Diagrams as JSON.  Every type of record is described by its fields, in the order in which they
are written.
-/

namespace FreeBody

open Json (Codec Record)

/-- A word of a finite type, as it is written. -/
def Keyword.codec (α : Type) [Keyword α] : Codec α := .word Keyword.word Keyword.ofWord?

/-! ## Elements -/

/-- The fields of a corner. -/
def Vec.record : Record Vec Vec :=
  Vec.mk <$> .required "x" .real Vec.x <*> .required "y" .real Vec.y

/-- The fields of a point. -/
def Point.record : Record Point Point :=
  Point.mk
    <$> .required "id" .text Point.id
    <*> .required "x" .real Point.x
    <*> .required "y" .real Point.y
    <*> .optional "label" .text Point.label
    <*> .defaulted "type" (Keyword.codec PointKind) .free Point.kind

/-- The fields of a force. -/
def Force.record : Record Force Force :=
  Force.mk
    <$> .required "id" .text Force.id
    <*> .required "pointId" .text Force.point
    <*> .required "magnitude" .real Force.magnitude
    <*> .required "angle" .real Force.angle
    <*> .required "label" .text Force.label
    <*> .optional "type" (Keyword.codec ForceKind) Force.kind
    <*> .optional "color" .text Force.color
    <*> .optional "units" (Keyword.codec Units) Force.units

/-- The fields of a moment. -/
def Moment.record : Record Moment Moment :=
  Moment.mk
    <$> .required "id" .text Moment.id
    <*> .required "pointId" .text Moment.point
    <*> .required "magnitude" .real Moment.magnitude
    <*> .required "direction" (Keyword.codec Rotation) Moment.direction
    <*> .required "label" .text Moment.label
    <*> .optional "radius" .real Moment.radius

/-- The fields of a body. -/
def Body.record : Record Body Body :=
  Body.mk
    <$> .required "type" (Keyword.codec BodyKind) Body.kind
    <*> .required "centerX" .real Body.x
    <*> .required "centerY" .real Body.y
    <*> .optional "width" .real Body.width
    <*> .optional "height" .real Body.height
    <*> .optional "radius" .real Body.radius
    <*> .optional "points" Vec.record.codec.list Body.points
    <*> .optional "fill" .text Body.fill
    <*> .optional "stroke" .text Body.stroke
    <*> .optional "angle" .real Body.angle

/-! ## Diagrams -/

namespace Diagram

/-- The fields of a diagram. -/
def record : Record Diagram Diagram :=
  Diagram.mk
    <$> .required "id" .text Diagram.id
    <*> .required "width" .real Diagram.width
    <*> .required "height" .real Diagram.height
    <*> .defaulted "points" Point.record.codec.list [] Diagram.points
    <*> .defaulted "forces" Force.record.codec.list [] Diagram.forces
    <*> .defaulted "moments" Moment.record.codec.list [] Diagram.moments
    <*> .optional "body" Body.record.codec Diagram.body
    <*> .listed "bodies" Body.record.codec Diagram.bodies
    <*> .optional "showAxes" .flag Diagram.showAxes
    <*> .optional "showGrid" .flag Diagram.showGrid
    <*> .optional "showAngles" .flag Diagram.showAngles
    <*> .optional "backgroundColor" .text Diagram.backgroundColor
    <*> .optional "backgroundSVG" .text Diagram.backgroundMarkup
    <*> .optional "customSVG" .text Diagram.renderedMarkup

/-- The stored form of a diagram. -/
def store (d : Diagram) : String := record.codec.store d

/-- The diagram with this stored form. -/
def load (s : String) : Except Json.Fault Diagram := record.codec.load s

end Diagram

end FreeBody
