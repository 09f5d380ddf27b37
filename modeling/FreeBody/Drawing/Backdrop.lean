import FreeBody.Drawing.Style
import FreeBody.Markup.Coordinate
import FreeBody.Markup.Tree

/-!
# The backdrop

What lies beneath the elements of a diagram, apart from the grid: the definitions and the style
sheet of the picture, the background colour and the axes.
-/

namespace FreeBody.Drawing

open Markup (Node coordinate corners plainRuns scopeName)

/-! ## Definitions -/

/-- The arrow marker and the body gradient. -/
def definitions (style : Style) (id : String) : Node :=
  let size := style.arrowHeadSize
  .group ⟨"defs", []⟩ [
    .group ⟨"marker", [
      ("id", markerId id),
      ("markerWidth", coordinate size),
      ("markerHeight", coordinate size),
      ("refX", coordinate size),
      ("refY", coordinate (size / 2)),
      ("orient", "auto"),
      ("markerUnits", "userSpaceOnUse")]⟩ [
      .leaf ⟨"polygon", [
        ("points", corners [⟨0, 0⟩, ⟨size, size / 2⟩, ⟨0, size⟩]),
        ("fill", "context-stroke")]⟩],
    .group ⟨"linearGradient", [
      ("id", gradientId id),
      ("x1", "0"),
      ("y1", "0"),
      ("x2", "0"),
      ("y2", "1")]⟩ [
      .leaf ⟨"stop", [("offset", "0"), ("stop-color", "#F3F4F6")]⟩,
      .leaf ⟨"stop", [("offset", "1"), ("stop-color", "#D1D5DB")]⟩]]

/-- A rule of the style sheet. -/
def rule (selector declarations : String) : String :=
  selector ++ " \x7b " ++ declarations ++ " \x7d"

/-- The style sheet; its rules hold within the picture of the diagram `id`. -/
def styleSheet (id : String) : String :=
  let scope := "#" ++ String.ofList (scopeName id.toList)
  let font := "font-family: 'Times New Roman', Times, serif; "
  rule (scope ++ " .fbd-label") (font ++ "font-style: italic; font-size: 14px;") ++ " " ++
    rule (scope ++ " .fbd-point-label") (font ++ "font-size: 12px;") ++ " " ++
    rule (scope ++ " .fbd-caption") "font-family: sans-serif; font-weight: bold;"

/-! ## Background -/

/-- The background rectangle; without a colour it is transparent. -/
def background (d : Diagram) : Node :=
  .leaf ⟨"rect", [
    ("class", "fbd-background"),
    ("width", coordinate d.width),
    ("height", coordinate d.height),
    ("fill", d.backgroundColor.getD "transparent")]⟩

/-! ## Axes -/

/-- The distance of the axes from the edges. -/
def axisPadding : Float := 30

/-- One axis, with an arrow at its tip. -/
def axis (style : Style) (id : String) (tail tip : Vec) : Node :=
  .leaf ⟨"line", [
    ("x1", coordinate tail.x),
    ("y1", coordinate tail.y),
    ("x2", coordinate tip.x),
    ("y2", coordinate tip.y),
    ("stroke", style.axesColor),
    ("stroke-width", "1.5"),
    ("marker-end", reference (markerId id))]⟩

/-- The name of an axis. -/
def axisName (style : Style) (name : String) (place : Vec) : Node :=
  .line ⟨"text", [
    ("class", "fbd-label"),
    ("x", coordinate place.x),
    ("y", coordinate place.y),
    ("fill", style.axesColor)]⟩ (plainRuns name)

/-- The two axes through the middle of the canvas. -/
def axes (style : Style) (d : Diagram) : Node :=
  let middle : Vec := ⟨d.width / 2, d.height / 2⟩
  .group ⟨"g", [("class", "fbd-axes"), ("opacity", "0.6")]⟩ [
    axis style d.id ⟨axisPadding, middle.y⟩ ⟨d.width - axisPadding, middle.y⟩,
    axis style d.id ⟨middle.x, d.height - axisPadding⟩ ⟨middle.x, axisPadding⟩,
    axisName style "x" ⟨d.width - axisPadding + 5, middle.y + 15⟩,
    axisName style "y" ⟨middle.x + 10, axisPadding - 5⟩]

end FreeBody.Drawing
