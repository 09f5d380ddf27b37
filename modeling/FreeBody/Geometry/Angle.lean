import FreeBody.Decimal.Binary
import FreeBody.Geometry.Vec

/-!
# Angles

Angles of forces are degrees counter-clockwise from the positive x-axis, with y up.  Screens
have y down, so a direction is flipped on the way to the screen.
-/

namespace FreeBody.Angle

/-- The circle number. -/
def pi : Float := 3.14159265358979323846264338327950288

/-- The angle `degrees` in radians. -/
def radians (degrees : Float) : Float := degrees * (pi / 180)

/-- The angle `radians` in degrees. -/
def degrees (radians : Float) : Float := radians * (180 / pi)

/-- The unit vector that points along `degrees` on the screen. -/
def direction (degrees : Float) : Vec := ⟨(radians degrees).cos, -(radians degrees).sin⟩

/-- Whether the angle points along an axis. -/
def isAxisAligned (degrees : Float) : Bool := isMultipleOf 90 degrees

/-- The angle in degrees of the step from `a` to `b` on the screen, from 0 up to 360. -/
def ofStep (a b : Vec) : Float :=
  let d := degrees (Float.atan2 (a.y - b.y) (b.x - a.x))
  if d < 0 then d + 360 else d

end FreeBody.Angle
