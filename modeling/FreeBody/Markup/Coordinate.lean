import FreeBody.Decimal.Text
import FreeBody.Geometry.Vec

/-!
# Coordinates

Numbers in markup are rounded to three places, a half going away from zero, and written without
needless zeros.  What is no finite number counts as zero.
-/

namespace FreeBody.Markup

/-- `s` without zeros at its end, and without a point that then ends it. -/
def trimPlaces (s : List Char) : List Char :=
  ((s.reverse.dropWhile (· == '0')).dropWhile (· == '.')).reverse

/-- The text of a number in markup. -/
def coordinate (x : Float) : String :=
  if !x.isFinite then "0"
  else
    let rounded := roundAway (x * 1000) / 1000
    if rounded == 0 then "0"
    else String.ofList (trimPlaces (Decimal.fixed 3 rounded).toList)

/-- The text of a list of corners. -/
def corners (vs : List Vec) : String :=
  String.intercalate " " (vs.map fun v => coordinate v.x ++ "," ++ coordinate v.y)

end FreeBody.Markup
