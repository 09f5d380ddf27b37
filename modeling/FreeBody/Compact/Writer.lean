import FreeBody.Diagram.Basic
import FreeBody.Decimal.Text

/-!
# Writing compact texts

A diagram in the custom form.  What the form has no place for is dropped: bodies, moments,
colours, markup.  An empty section is left out.
-/

namespace FreeBody.Compact

/-- `name(parts)` with commas between the parts. -/
def call (name : String) (parts : List String) : String :=
  name ++ "(" ++ String.intercalate "," parts ++ ")"

/-- The compact text of a point. -/
def writePoint (p : Point) : String :=
  call p.id ([Decimal.plain p.x, Decimal.plain p.y] ++ p.label.toList)

/-- The compact text of a force. -/
def writeForce (f : Force) : String :=
  call (f.id ++ "@" ++ f.point)
    ([Decimal.plain f.magnitude, Decimal.plain f.angle, f.label] ++
      (f.kind.map Keyword.word).toList)

/-- An option that is set. -/
def writeOption (key : String) (on : Option Bool) : List String :=
  (on.map fun b => key ++ "=" ++ if b then "true" else "false").toList

/-- The compact text of a diagram. -/
def write (d : Diagram) : String :=
  let options :=
    writeOption "axes" d.showAxes ++ writeOption "grid" d.showGrid ++
      writeOption "angles" d.showAngles
  let sections := [d.points.map writePoint, d.forces.map writeForce, options]
  String.intercalate " | "
    ((sections.map (String.intercalate " ")).filter (!·.isEmpty))

end FreeBody.Compact
