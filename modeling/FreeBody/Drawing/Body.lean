import FreeBody.Drawing.Style
import FreeBody.Markup.Coordinate
import FreeBody.Markup.Tree

/-!
# Bodies

Each kind of body has an outline.  Sizes that are missing have defaults; a custom body without
corners is not drawn.  A turned body stands in a group of its own; a point body is never turned.
-/

namespace FreeBody.Drawing

open Markup (Node coordinate corners)

/-- The corners of a triangle: its own if it has at least three, else those of an equilateral
one around the centre. -/
def triangleCorners (b : Body) : List Vec :=
  let own := b.points.getD []
  if 3 ≤ own.length then own
  else
    let r := b.radius.getD ((b.width.map (· / 2)).getD 20)
    let h := r * Float.sqrt 3
    [⟨b.x, b.y - r⟩, ⟨b.x - h / 2, b.y + r / 2⟩, ⟨b.x + h / 2, b.y + r / 2⟩]

/-- The colours and the line width of an outline. -/
def paint (style : Style) (id : String) (b : Body) : List (String × String) := [
  ("fill", style.fillOf id b),
  ("stroke", style.strokeOf b),
  ("stroke-width", "2")]

/-- A body bounded by straight lines. -/
def polygon (style : Style) (id : String) (b : Body) (cls : String) (vs : List Vec) : Node :=
  .leaf ⟨"polygon", ("class", cls) :: ("points", corners vs) :: paint style id b⟩

/-- The outline of a body as it stands, not turned. -/
def outline (style : Style) (id : String) (b : Body) : Option Node :=
  match b.kind with
  | .rectangle =>
    let width := b.width.getD 60
    let height := b.height.getD 40
    some (.leaf ⟨"rect",
      ("class", "fbd-body fbd-body-rectangle") ::
      ("x", coordinate (b.x - width / 2)) ::
      ("y", coordinate (b.y - height / 2)) ::
      ("width", coordinate width) ::
      ("height", coordinate height) :: paint style id b⟩)
  | .circle =>
    some (.leaf ⟨"circle",
      ("class", "fbd-body fbd-body-circle") ::
      ("cx", coordinate b.x) ::
      ("cy", coordinate b.y) ::
      ("r", coordinate (b.radius.getD 30)) :: paint style id b⟩)
  | .point =>
    some (.leaf ⟨"circle", [
      ("class", "fbd-body fbd-body-point"),
      ("cx", coordinate b.x),
      ("cy", coordinate b.y),
      ("r", "5"),
      ("fill", style.strokeOf b)]⟩)
  | .triangle => some (polygon style id b "fbd-body fbd-body-triangle" (triangleCorners b))
  | .custom =>
    match b.points.getD [] with
    | [] => none
    | vs => some (polygon style id b "fbd-body fbd-body-custom" vs)

/-- The turn of a body that is not none. -/
def turn? (b : Body) : Option Float :=
  match b.kind with
  | .point => none
  | _ => b.angle.filter (· != 0)

/-- A body, turned. -/
def body (style : Style) (id : String) (b : Body) : Option Node :=
  (outline style id b).map fun shape =>
    match turn? b with
    | none => shape
    | some angle =>
      .group ⟨"g", [
        ("transform", "rotate(" ++ coordinate (-angle) ++ " " ++ coordinate b.x ++ " " ++
          coordinate b.y ++ ")")]⟩ [shape]

end FreeBody.Drawing
