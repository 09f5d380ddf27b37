import FreeBody.Decimal.Text
import FreeBody.Geometry.Arrow

/-!
# Measuring and snapping

What an editor of diagrams needs: the nearest preferred angle, the nearest grid corner, the ends
of an arrow being dragged, and short texts for magnitudes.
-/

namespace FreeBody.Measure

/-- The angles offered as targets. -/
def snapAngles : List Float :=
  [0, 30, 45, 60, 90, 120, 135, 150, 180, 210, 225, 240, 270, 300, 315, 330]

/-- The candidate nearest to `angle`, the first of several; without candidates, `angle`. -/
def snapAngle (angle : Float) : List Float → Float
  | [] => angle
  | first :: rest =>
    rest.foldl
      (fun best candidate =>
        if (angle - candidate).abs < (angle - best).abs then candidate else best)
      first

/-- The distance of two positions. -/
def distance (a b : Vec) : Float := (a - b).length

/-- The corner nearest to `at` of a grid of the given step. -/
def snapToGrid (position : Vec) (grid : Float) : Vec :=
  if grid ≤ 0 then position
  else ⟨roundAway (position.x / grid) * grid, roundAway (position.y / grid) * grid⟩

/-- The tip of a force drawn at its raw magnitude. -/
def forceEnd (start : Vec) (magnitude angle : Float) : Vec :=
  start + (Angle.direction angle).scale magnitude

/-- The two barbs of an arrow from `start` to `tip`. -/
def barbs (start tip : Vec) (size : Float) : List Vec := (arrowHead tip (tip - start) size).tail

/-- The head size of an arrow that is being dragged. -/
def previewHead : Float := 10

/-- A magnitude with one place, in thousands from 1000 on. -/
def magnitudeText (magnitude : Float) : String :=
  if 1000 ≤ magnitude then Decimal.fixed 1 (magnitude / 1000) ++ "k"
  else Decimal.fixed 1 magnitude

end FreeBody.Measure
