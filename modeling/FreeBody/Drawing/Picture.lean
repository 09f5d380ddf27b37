import FreeBody.Drawing.Backdrop
import FreeBody.Drawing.Body
import FreeBody.Drawing.Element
import FreeBody.Drawing.Grid
import FreeBody.Markup.Root

/-!
# Pictures of diagrams

The picture of a diagram is one tree, in layers: definitions and style sheet, background, grid,
axes, background art, then bodies, points, forces and moments.  Forces and moments at no point
are left out.

A diagram has a picture only if the loops that draw its grid end (`Diagram.render_isSome_iff`).
-/

namespace FreeBody

open Markup (Node coordinate plainRuns)

namespace Drawing

/-- Art supplied for the background, without its root. -/
def backgroundArt (d : Diagram) : List Node :=
  let art := Markup.stripRoot (d.backgroundMarkup.getD "")
  if art.isEmpty then []
  else [.group ⟨"g", [("class", "fbd-background-art")]⟩ [.verbatim art]]

/-- What lies beneath bodies, points, forces and moments, with the layer of the grid. -/
def backdrop (style : Style) (d : Diagram) (grid : List Node) : List Node :=
  definitions style d.id ::
    .line ⟨"style", []⟩ (plainRuns (styleSheet d.id)) ::
    background d ::
    grid ++
    (if d.showAxes = some true then [axes style d] else []) ++
    backgroundArt d

/-- The bodies that have an outline. -/
def bodies (style : Style) (d : Diagram) : List Node := d.allBodies.filterMap (body style d.id)

/-- All points. -/
def points (style : Style) (d : Diagram) : List Node := d.points.map (point style)

/-- The forces that act at a point and have a length. -/
def forces (style : Style) (d : Diagram) : List Node :=
  d.forces.filterMap fun f =>
    (d.point? f.point).bind fun p => force style (d.showAngles = some true) p f

/-- The moments that act at a point. -/
def moments (style : Style) (d : Diagram) : List Node :=
  d.moments.filterMap fun m => (d.point? m.point).map fun p => moment style p m

/-- The picture of a diagram with the layer of its grid. -/
def picture (style : Style) (d : Diagram) (grid : List Node) : Node :=
  .group ⟨"svg", [
    ("xmlns", "http://www.w3.org/2000/svg"),
    ("id", d.id),
    ("class", "fbd-diagram"),
    ("width", coordinate d.width),
    ("height", coordinate d.height),
    ("viewBox", "0 0 " ++ coordinate d.width ++ " " ++ coordinate d.height)]⟩
    (backdrop style d grid ++ bodies style d ++ points style d ++ forces style d ++
      moments style d)

end Drawing

namespace Diagram

/-- The picture of a diagram as markup.  There is none if the drawing of the grid never ends. -/
def render (d : Diagram) (style : Style) : Option String :=
  (Drawing.gridLayer style d).map fun grid => (Drawing.picture style d grid).text

/-- The finished picture of a diagram: the one it carries, or a rendering in the default
style. -/
def markup (d : Diagram) : Option String :=
  match d.renderedMarkup with
  | some markup => some markup
  | none => d.render {}

theorem render_isSome_iff {d : Diagram} {style : Style} :
    (d.render style).isSome = true ↔ d.GridEnds style := by
  rw [render, Option.isSome_map, Drawing.gridLayer_isSome_iff]

theorem render_eq_none_iff {d : Diagram} {style : Style} :
    d.render style = none ↔ ¬ d.GridEnds style := by
  rw [← render_isSome_iff, Option.not_isSome_iff_eq_none]

theorem markup_of_supplied {d : Diagram} {picture : String}
    (h : d.renderedMarkup = some picture) : d.markup = some picture := by rw [markup, h]

theorem markup_of_none {d : Diagram} (h : d.renderedMarkup = none) : d.markup = d.render {} := by
  rw [markup, h]

theorem isSome_markup {d : Diagram} (h : d.GridEnds {}) : d.markup.isSome = true := by
  unfold markup
  split
  · rfl
  · exact render_isSome_iff.2 h

/-- A diagram whose grid ends, with its finished picture. -/
def finished (d : Diagram) (h : d.GridEnds {}) : Diagram :=
  { d with renderedMarkup := some (d.markup.get (isSome_markup h)) }

theorem finished_eq {d : Diagram} {picture : String} (hmarkup : d.markup = some picture)
    (h : d.GridEnds {}) : d.finished h = { d with renderedMarkup := some picture } := by
  rw [finished, Option.get_of_eq_some _ hmarkup]

/-- Whether a diagram carries its finished picture. -/
def IsFinished (d : Diagram) : Prop := d.renderedMarkup.isSome = true

theorem IsFinished.isSome_markup {d : Diagram} (h : d.IsFinished) : d.markup.isSome = true := by
  obtain ⟨picture, hpicture⟩ := Option.isSome_iff_exists.1 h
  rw [markup_of_supplied hpicture]
  rfl

end Diagram

end FreeBody
