import FreeBody.Drawing.Style
import FreeBody.Label.Typeset
import FreeBody.Markup.Coordinate

/-!
# Points, forces and moments

Each element is a group that carries its id.  A force is drawn only if its arrow has a length.
-/

namespace FreeBody.Drawing

open Markup (Node coordinate corners plainRuns)

/-! ## Points -/

/-- The ground under a fixed point: a line and four strokes beneath it. -/
def hatchPath (foot : Vec) : String :=
  let y := foot.y + 6
  let segment (a b : Vec) : String :=
    "M " ++ coordinate a.x ++ " " ++ coordinate a.y ++ " L " ++ coordinate b.x ++ " " ++
      coordinate b.y
  let strokes := [0, 1, 2, 3].map fun (i : Float) =>
    let x := foot.x - 12 + 6 * i + 3
    segment ⟨x, y⟩ ⟨x - 5, y + 6⟩
  String.intercalate " " (segment ⟨foot.x - 12, y⟩ ⟨foot.x + 12, y⟩ :: strokes)

/-- The mark of a support. -/
def support (style : Style) (p : Point) : List Node :=
  match p.kind with
  | .fixed => [
    .leaf ⟨"path", [
      ("d", hatchPath p.position),
      ("stroke", style.pointColor),
      ("stroke-width", "1.5"),
      ("fill", "none")]⟩]
  | .pivot => [
    .leaf ⟨"circle", [
      ("cx", coordinate p.x),
      ("cy", coordinate p.y),
      ("r", "7"),
      ("fill", "none"),
      ("stroke", style.pointColor),
      ("stroke-width", "1.5")]⟩]
  | .free => []

/-- The label above a point, unless it is empty. -/
def pointLabel (style : Style) (p : Point) : List Node :=
  let label := p.label.getD ""
  if label.isEmpty then []
  else [
    .line ⟨"text", [
      ("class", "fbd-point-label"),
      ("x", coordinate p.x),
      ("y", coordinate (p.y - 10)),
      ("text-anchor", "middle"),
      ("fill", style.pointColor)]⟩ (Label.runs label.toList)]

/-- A point with its support and its label. -/
def point (style : Style) (p : Point) : Node :=
  .group ⟨"g", [
    ("class", "fbd-point fbd-point-" ++ Keyword.word p.kind),
    ("data-point-id", p.id)]⟩
    (support style p ++
      .leaf ⟨"circle", [
        ("cx", coordinate p.x),
        ("cy", coordinate p.y),
        ("r", "4"),
        ("fill", style.pointColor)]⟩ ::
      pointLabel style p)

/-! ## Forces -/

/-- The label beyond the tip of a force, unless it is empty. -/
def forceLabel (color : String) (f : Force) (tip : Vec) : List Node :=
  if f.label.isEmpty then []
  else
    let place := tip + (Angle.direction f.angle).scale 15
    [
      .line ⟨"text", [
        ("class", "fbd-label"),
        ("x", coordinate place.x),
        ("y", coordinate place.y),
        ("fill", color),
        ("text-anchor", "middle"),
        ("dominant-baseline", "middle")]⟩ (Label.runs f.label.toList)]

/-- The angle beside the foot of a force that is not along an axis. -/
def angleText (style : Style) (f : Force) (foot : Vec) : List Node :=
  if Angle.isAxisAligned f.angle then []
  else [
    .line ⟨"text", [
      ("class", "fbd-angle"),
      ("x", coordinate (foot.x + 20)),
      ("y", coordinate (foot.y - 10)),
      ("fill", style.angleColor),
      ("font-size", "11")]⟩ (plainRuns (coordinate f.angle ++ "°"))]

/-- The arrow of a force that acts at `p`; none if it has no length. -/
def force (style : Style) (showAngles : Bool) (p : Point) (f : Force) : Option Node :=
  let foot := p.position
  let step := displacement f.magnitude f.angle (style.forceUnits f)
  if step.lengthSquared == 0 then none
  else
    let tip := foot + step
    let color := style.forceColor f
    some (.group ⟨"g", [("class", "fbd-force"), ("data-force-id", f.id)]⟩
      (.leaf ⟨"line", [
        ("class", "fbd-force-line"),
        ("x1", coordinate foot.x),
        ("y1", coordinate foot.y),
        ("x2", coordinate tip.x),
        ("y2", coordinate tip.y),
        ("stroke", color),
        ("stroke-width", coordinate style.arrowWidth),
        ("stroke-linecap", "round")]⟩ ::
      .leaf ⟨"polygon", [
        ("points", corners (arrowHead tip step style.arrowHeadSize)),
        ("fill", color)]⟩ ::
      forceLabel color f tip ++
      (if showAngles then angleText style f foot else [])))

/-! ## Moments -/

/-- The path of an arc. -/
def arcPath (a : Arc) : String :=
  "M " ++ coordinate a.start.x ++ " " ++ coordinate a.start.y ++ " A " ++ coordinate a.radius ++
    " " ++ coordinate a.radius ++ " 0 1 " ++ toString a.sweep ++ " " ++ coordinate a.finish.x ++
    " " ++ coordinate a.finish.y

/-- The arc of a moment that acts at `p`, with its magnitude. -/
def moment (style : Style) (p : Point) (m : Moment) : Node :=
  let radius := m.radius.getD 30
  let arc := Arc.around p.position radius m.direction
  let color := style.momentColor
  .group ⟨"g", [
    ("class", "fbd-moment fbd-moment-" ++ Keyword.word m.direction),
    ("data-moment-id", m.id)]⟩ [
    .leaf ⟨"path", [
      ("d", arcPath arc),
      ("fill", "none"),
      ("stroke", color),
      ("stroke-width", "2")]⟩,
    .leaf ⟨"polygon", [
      ("points", corners (arrowHead arc.finish arc.heading 8)),
      ("fill", color)]⟩,
    .line ⟨"text", [
      ("class", "fbd-label"),
      ("x", coordinate p.x),
      ("y", coordinate (p.y - radius - 15)),
      ("fill", color),
      ("text-anchor", "middle")]⟩
      (Label.runs m.label.toList ++ plainRuns (" (" ++ coordinate m.magnitude ++ " N·m)")),
    .leaf ⟨"circle", [
      ("cx", coordinate p.x),
      ("cy", coordinate p.y),
      ("r", "3"),
      ("fill", color),
      ("opacity", "0.5")]⟩]

end FreeBody.Drawing
