import FreeBody.Drawing.Picture
import FreeBody.Proofs.Drawing.Ends
import FreeBody.Proofs.Markup.Layout

/-!
# Pictures are well-formed markup

Whatever strings a diagram and a style hold, the picture is one `svg` element and the end of a
line, and there is one unless the drawing of the grid never ends (`render_wellFormed`).  The strings
reach the markup as attribute values and runs, which are escaped; so all that is shown here, layer
by layer, is that the tags fit.
-/

namespace FreeBody.Drawing

open Markup (Node Tag NodesFit nodesFit_iff nodesFit_append nodesFit_ite)

/-- A name of an element inside a picture: not the name of the root. -/
def Inner (name : List Char) : Prop := name ≠ "svg".toList

instance : DecidablePred Inner := fun name => inferInstanceAs (Decidable (name ≠ "svg".toList))

/-! ## Backdrop -/

variable (style : Style)

theorem definitions_fit (id : String) : (definitions style id).Fits Inner := by
  simp only [definitions, Node.Fits, NodesFit, Tag.Fits, List.map]
  decide

theorem background_fits (d : Diagram) : (background d).Fits Inner := by
  simp only [background, Node.Fits, Tag.Fits, List.map]
  decide

theorem gridNode_fits (path : String) : (gridNode style path).Fits Inner := by
  simp only [gridNode, Node.Fits, Tag.Fits, List.map]
  decide

theorem grid_fits {d : Diagram} {grid : List Node} (h : gridLayer style d = some grid) :
    NodesFit Inner grid := by
  rcases gridLayer_cases h with rfl | ⟨path, -, rfl⟩
  · trivial
  · exact ⟨gridNode_fits style path, trivial⟩

theorem axes_fit (d : Diagram) : (axes style d).Fits Inner := by
  simp only [axes, axis, axisName, Node.Fits, NodesFit, Tag.Fits, List.map]
  decide

theorem backgroundArt_eq_nil {d : Diagram} (h : d.backgroundMarkup = none) :
    backgroundArt d = [] := by
  have empty : (Markup.stripRoot "").isEmpty = true := by decide
  rw [backgroundArt, h]
  exact if_pos empty

theorem backdrop_fits {d : Diagram} {grid : List Node} (h : d.backgroundMarkup = none)
    (hgrid : gridLayer style d = some grid) : NodesFit Inner (backdrop style d grid) := by
  have sheet : (Node.line ⟨"style", []⟩ (Markup.plainRuns (styleSheet d.id))).Fits Inner := by
    simp only [Node.Fits, Tag.Fits, List.map]
    decide
  have cross : NodesFit Inner [axes style d] := ⟨axes_fit style d, trivial⟩
  rw [backdrop, backgroundArt_eq_nil h, List.append_nil, nodesFit_append]
  exact ⟨⟨definitions_fit style d.id, sheet, background_fits d, grid_fits style hgrid⟩,
    nodesFit_ite cross⟩

/-! ## Bodies -/

theorem polygon_fits (id : String) (b : Body) (cls : String) (vs : List Vec) :
    (polygon style id b cls vs).Fits Inner := by
  simp only [polygon, paint, Node.Fits, Tag.Fits, List.map]
  decide

theorem outline_fits {id : String} {b : Body} {n : Node} (h : outline style id b = some n) :
    n.Fits Inner := by
  unfold outline at h
  split at h
  case h_4 =>
    cases h
    exact polygon_fits style id b _ _
  case h_5 =>
    split at h
    · cases h
    · cases h
      exact polygon_fits style id b _ _
  all_goals
    cases h
    simp only [paint, Node.Fits, Tag.Fits, List.map]
    decide

/-- The group around a turned body is closed. -/
theorem body_fits {id : String} {b : Body} {n : Node} (h : body style id b = some n) :
    n.Fits Inner := by
  obtain ⟨shape, hs, rfl⟩ := Option.map_eq_some_iff.mp h
  have inner := outline_fits style hs
  split
  · exact inner
  · refine ⟨?_, inner, trivial⟩
    simp only [Tag.Fits, List.map]
    decide

/-! ## Points, forces and moments -/

theorem support_fits (p : Point) : NodesFit Inner (support style p) := by
  unfold support
  split
  case h_3 => trivial
  all_goals
    simp only [Node.Fits, NodesFit, Tag.Fits, List.map]
    decide

theorem pointLabel_fits (p : Point) : NodesFit Inner (pointLabel style p) := by
  simp only [pointLabel]
  split
  · trivial
  · simp only [Node.Fits, NodesFit, Tag.Fits, List.map]
    decide

theorem point_fits (p : Point) : (point style p).Fits Inner := by
  have tag (cls id : String) :
      (Tag.mk "g" [("class", cls), ("data-point-id", id)]).Fits Inner := by
    simp only [Tag.Fits, List.map]
    decide
  have dot (cx cy color : String) :
      (Tag.mk "circle" [("cx", cx), ("cy", cy), ("r", "4"), ("fill", color)]).Fits Inner := by
    simp only [Tag.Fits, List.map]
    decide
  exact ⟨tag _ _, nodesFit_append.mpr ⟨support_fits style p, dot _ _ _, pointLabel_fits style p⟩⟩

theorem forceLabel_fits (color : String) (f : Force) (tip : Vec) :
    NodesFit Inner (forceLabel color f tip) := by
  simp only [forceLabel]
  split
  · trivial
  · simp only [Node.Fits, NodesFit, Tag.Fits, List.map]
    decide

theorem angleText_fits (f : Force) (foot : Vec) : NodesFit Inner (angleText style f foot) := by
  simp only [angleText]
  split
  · trivial
  · simp only [Node.Fits, NodesFit, Tag.Fits, List.map]
    decide

theorem force_fits {showAngles : Bool} {p : Point} {f : Force} {n : Node}
    (h : force style showAngles p f = some n) : n.Fits Inner := by
  simp only [force] at h
  split at h
  · cases h
  · cases h
    have label (tip : Vec) := nodesFit_append.mpr ⟨forceLabel_fits (style.forceColor f) f tip,
      nodesFit_ite (c := showAngles) (angleText_fits style f p.position)⟩
    simp only [Node.Fits, NodesFit, Tag.Fits, List.map, List.cons_append]
    exact ⟨by decide, by decide, by decide, label _⟩

theorem moment_fits (p : Point) (m : Moment) : (moment style p m).Fits Inner := by
  simp only [moment, Node.Fits, NodesFit, Tag.Fits, List.map]
  decide

/-! ## Pictures -/

section

variable {d : Diagram} {grid : List Node} (h : d.backgroundMarkup = none)
  (hgrid : gridLayer style d = some grid)

include h hgrid

theorem layers_fit :
    NodesFit Inner
      (backdrop style d grid ++ bodies style d ++ points style d ++ forces style d ++
        moments style d) := by
  simp only [nodesFit_append]
  refine ⟨⟨⟨⟨backdrop_fits style h hgrid, ?_⟩, ?_⟩, ?_⟩, ?_⟩
  · rw [nodesFit_iff]
    intro n hn
    obtain ⟨b, _, hb⟩ := List.mem_filterMap.mp hn
    exact body_fits style hb
  · rw [nodesFit_iff]
    intro n hn
    obtain ⟨p, _, rfl⟩ := List.mem_map.mp hn
    exact point_fits style p
  · rw [nodesFit_iff]
    intro n hn
    obtain ⟨f, _, hf⟩ := List.mem_filterMap.mp hn
    obtain ⟨p, _, hp⟩ := Option.bind_eq_some_iff.mp hf
    exact force_fits style hp
  · rw [nodesFit_iff]
    intro n hn
    obtain ⟨m, _, hm⟩ := List.mem_filterMap.mp hn
    obtain ⟨p, _, rfl⟩ := Option.map_eq_some_iff.mp hm
    exact moment_fits style p m

theorem picture_isRoot : (picture style d grid).IsRoot Inner "svg" := by
  have layers := layers_fit style h hgrid
  simp only [picture, Node.IsRoot, Tag.Fits, List.map]
  exact ⟨by decide, layers⟩

end

/-- A rendered picture is drawn with the layer of the grid. -/
theorem exists_of_render {d : Diagram} {style : Style} {markup : String}
    (h : d.render style = some markup) :
    ∃ grid, gridLayer style d = some grid ∧ (picture style d grid).text = markup :=
  Option.map_eq_some_iff.1 h

/-- **Pictures are well formed.**  Whatever a diagram and a style hold, there is a picture exactly
if the loops that draw the grid end.  It is one root element, without another `svg` element in it,
and the end of a line; and every `&` in it begins an entity. -/
theorem render_wellFormed (d : Diagram) (h : d.backgroundMarkup = none) :
    ((d.render style).isSome = true ↔ d.GridEnds style) ∧
      ∀ picture, d.render style = some picture →
        ∃ markup, picture.toList = markup ++ ['\n'] ∧
          Markup.Element Inner "svg".toList markup ∧ Markup.EntitiesOnly picture.toList := by
  refine ⟨Diagram.render_isSome_iff, fun picture hpicture => ?_⟩
  obtain ⟨grid, hgrid, rfl⟩ := exists_of_render hpicture
  obtain ⟨markup, ht, he⟩ := (picture_isRoot style h hgrid).text (by decide)
  have newline : Markup.EntitiesOnly ['\n'] := Markup.entitiesOnly_of_not_mem (by decide)
  refine ⟨markup, ht, he, ?_⟩
  rw [ht]
  exact he.entitiesOnly.append newline

/-- A diagram whose strings are pieces of markup. -/
def hostile : Diagram where
  id := "\"></svg><svg id='"
  width := 100
  height := 100
  points := [⟨"]]>", 1, 2, some "_\x7b</text>\x7d&", .fixed⟩]
  forces := [⟨"<g>", "]]>", 30, 45, "^a<script>", none, some "\" onload=\"", none⟩]
  backgroundColor := some "&amp"
  showGrid := some true
  showAxes := some true

theorem render_wellFormed_hostile :
    hostile.backgroundMarkup = none ∧ hostile.GridEnds {} ∧
      ∃ picture, hostile.render {} = some picture ∧
        ∃ markup, picture.toList = markup ++ ['\n'] ∧
          Markup.Element Inner "svg".toList markup ∧ Markup.EntitiesOnly picture.toList := by
  have hends : Ends 20 100 := ⟨4, by decide +kernel⟩
  have hgrid : hostile.GridEnds {} := Diagram.gridEnds_of_ends ⟨hends, hends⟩
  obtain ⟨hdrawn, hwell⟩ := render_wellFormed {} hostile rfl
  obtain ⟨picture, hpicture⟩ := Option.isSome_iff_exists.1 (hdrawn.2 hgrid)
  exact ⟨rfl, hgrid, picture, hpicture, hwell picture hpicture⟩

/-- A canvas without background art that has no picture. -/
theorem render_never_ends :
    let d : Diagram := { id := "d", width := 1e300, height := 400, showGrid := some true }
    let style : Style := { gridSpacing := 1e280 }
    d.backgroundMarkup = none ∧ d.render style = none := by
  intro d style
  exact ⟨rfl, Diagram.render_eq_none_iff.2 (not_gridEnds_huge rfl rfl)⟩

end FreeBody.Drawing
