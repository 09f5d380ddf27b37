import FreeBody.Geometry.Angle

/-!
# Arrows

A force is an arrow from its point; its length on the screen comes from its magnitude.  A
moment is an arc of 300° around its point.  Both carry a triangular head.
-/

namespace FreeBody

/-- How a magnitude becomes a length in pixels. -/
inductive Units
  /-- A magnitude below 20 is drawn tenfold, any other as it is. -/
  | auto
  /-- The magnitude is the length. -/
  | pixels
  deriving DecidableEq, Repr

namespace Units

/-- The length in pixels of a magnitude. -/
def length : Units → Float → Float
  | auto, magnitude => if magnitude < 20 then magnitude * 10 else magnitude
  | pixels, magnitude => magnitude

end Units

/-- The step from the foot to the tip of a force. -/
def displacement (magnitude angle : Float) (units : Units) : Vec :=
  (Angle.direction angle).scale (units.length magnitude)

/-- A head that points along `heading` with its tip at `tip`: the tip and the two barbs, 30° to
either side. -/
def arrowHead (tip heading : Vec) (size : Float) : List Vec :=
  let angle := Float.atan2 heading.y heading.x
  let spread : Float := 0.52359877559829887307710723054658381
  let barb (a : Float) : Vec := tip - (Vec.mk a.cos a.sin).scale size
  [tip, barb (angle - spread), barb (angle + spread)]

/-- Sense of rotation of a moment. -/
inductive Rotation
  | cw
  | ccw
  deriving DecidableEq, Repr

/-- The arc of a moment. -/
structure Arc where
  start : Vec
  finish : Vec
  radius : Float
  /-- The sweep flag of the path: 1 runs clockwise on the screen. -/
  sweep : Nat
  /-- The direction of travel at the end. -/
  heading : Vec

/-- The arc of `radius` around `center`, from 30° off the x-axis round to 30° off it. -/
def Arc.around (center : Vec) (radius : Float) (rotation : Rotation) : Arc :=
  let onCircle (degrees : Float) : Vec := center + (Angle.direction degrees).scale radius
  match rotation with
  | .cw =>
    let last := Angle.radians (-330)
    ⟨onCircle (-30), onCircle (-330), radius, 1, ⟨last.sin, last.cos⟩⟩
  | .ccw =>
    let last := Angle.radians 330
    ⟨onCircle 30, onCircle 330, radius, 0, ⟨-last.sin, -last.cos⟩⟩

end FreeBody
