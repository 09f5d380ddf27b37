import FreeBody.Proofs.Drawing.Attributes
import FreeBody.Proofs.Markup.Root

/-!
# Pictures within pictures

A finished picture is shown inside another in two steps: its root is taken off, and what is left
is background art of the other.  Neither step harms it: a picture without its root is content
that holds no group of a composition (`rootless`), and a drawing that begins with a tag of its
own is read in the art as it is (`backgroundArt_fits`, `contents_backgroundArt`).
-/

namespace FreeBody

open Markup (Node NodesFit nodesFit_append Content rootContent classContents nodesContents
  nodesContents_append nodesText flow isOther)
open Text (contentLines trim)

/-- Whether a markup is a picture that was rendered without background art. -/
def Drawing.IsPicture (markup : String) : Prop :=
  ∃ (pictured : Diagram) (style : Style),
    pictured.backgroundMarkup = none ∧ pictured.render style = some markup

/-- Whether a diagram has a finished picture, rendered without background art. -/
def Diagram.IsRendered (d : Diagram) : Prop :=
  ∃ markup, d.markup = some markup ∧ Drawing.IsPicture markup

namespace Diagram

variable {d : Diagram}

/-- A finished picture is not drawn again. -/
theorem render_rendered (d : Diagram) (picture : Option String) (style : Style) :
    { d with renderedMarkup := picture }.render style = d.render style := rfl

theorem render_finished (h : d.GridEnds {}) (style : Style) :
    (d.finished h).render style = d.render style := d.render_rendered _ style

theorem markup_finished (h : d.GridEnds {}) : (d.finished h).markup = d.markup :=
  (markup_of_supplied rfl).trans (Option.some_get _)

end Diagram

namespace Drawing

/-! ## Pictures without their root -/

section

variable (style : Style) {d : Diagram} {grid : List Node} (h : d.backgroundMarkup = none)
  (hgrid : gridLayer style d = some grid)

include h hgrid

theorem contentLines_rootContent :
    contentLines (rootContent (picture style d grid).text.toList) =
      flow (definitions style d.id :: upper style d grid) := by
  rw [picture, layers_eq, Markup.rootContent_text (picture_isRoot style h hgrid).1 rfl,
    Text.contentLines_trim, ← Markup.contentLines_nodesLines 1]
  exact Text.contentLines_append [] _

/-- No group in a picture is one of a composition. -/
theorem contents_layers :
    nodesContents "fbd-composed".toList (definitions style d.id :: upper style d grid) = [] := by
  have hdefinitions : (definitions style d.id).contents "fbd-composed".toList = [] := by
    refine definitions_drawn.contents_eq_nil (by decide) fun v hv => ?_
    rcases hv with hv | hv | hv
    · exact absurd (Prod.mk.inj hv).1 (by decide)
    · exact absurd (Prod.mk.inj hv).1 (by decide)
    · exact hv.cls rfl
  have hupper : nodesContents "fbd-composed".toList (upper style d grid) = [] :=
    (upper_drawn h hgrid).contents_eq_nil (by decide) fun v hv => hv.cls rfl
  rw [nodesContents, hdefinitions, hupper]
  rfl

end

/-- What is left of a picture without its root. -/
structure Rootless (s : List Char) : Prop where
  content : Content Inner s
  contents : classContents "fbd-composed".toList s = []

theorem rootless {markup : String} (h : IsPicture markup) :
    Rootless (rootContent markup.toList) := by
  obtain ⟨pictured, style, hart, hrender⟩ := h
  obtain ⟨grid, hgrid, rfl⟩ := exists_of_render hrender
  have hcls : '\n' ∉ "fbd-composed".toList := by decide
  have hrelaid := (layers_fit style hart hgrid).relaid (by decide) hcls
    (contentLines_rootContent style hart hgrid)
  exact ⟨hrelaid.1, List.map_eq_nil_iff.1 (hrelaid.2.trans (contents_layers style hart hgrid))⟩

/-- A picture whose root is taken off is content wherever a picture's is. -/
theorem content_stripRoot {markup : String} (h : IsPicture markup) :
    Content Inner (Markup.stripRoot markup).toList := by
  rw [Markup.toList_stripRoot]
  exact (rootless h).content

/-! ## Background art -/

theorem backdrop_eq (style : Style) (d : Diagram) (grid : List Node) :
    backdrop style d grid =
      backdrop style { d with backgroundMarkup := none } grid ++ backgroundArt d := by
  have hnone := backgroundArt_eq_nil (d := { d with backgroundMarkup := none }) rfl
  simp only [backdrop, hnone, List.append_nil]
  rfl

/-- A drawing whose first tree has a tag that is no root's. -/
def Leads (ns : List Node) : Prop :=
  ∀ n ∈ ns.head?, ∃ name, n.name? = some name ∧ isOther name.toList = true

theorem leads_append {ns ms : List Node} (hns : Leads ns) (hms : Leads ms) : Leads (ns ++ ms) := by
  cases ns with
  | nil => exact hms
  | cons n ns => exact hns

/-- A drawing as background art. -/
def asArt : List Node → List Node
  | [] => []
  | n :: rest => [.group ⟨"g", [("class", "fbd-background-art")]⟩
      [.verbatim (String.ofList (trim (nodesText (n :: rest)).toList))]]

theorem backgroundArt_eq {d : Diagram} {drawing : List Node}
    (hd : d.backgroundMarkup = some (nodesText drawing)) (hleads : Leads drawing) :
    backgroundArt d = asArt drawing := by
  cases drawing with
  | nil =>
    have hempty : (Markup.stripRoot (nodesText [])).isEmpty = true := by decide
    rw [backgroundArt, hd]
    exact if_pos hempty
  | cons n rest =>
    obtain ⟨t, ht, hother⟩ := hleads n rfl
    obtain ⟨hroot, hne⟩ := Markup.rootContent_nodesText ht hother rest
    have hnonempty : ¬ (String.ofList (trim (nodesText (n :: rest)).toList)).isEmpty = true := by
      simpa using hne
    rw [backgroundArt, hd, Option.getD_some, Markup.stripRoot, hroot]
    exact if_neg hnonempty

/-- A drawing is read as art as it is. -/
theorem asArt_relaid {drawing : List Node} (h : NodesFit Inner drawing) :
    NodesFit Inner (asArt drawing) ∧ nodesContents "fbd-composed".toList (asArt drawing) =
      nodesContents "fbd-composed".toList drawing := by
  have hcls : '\n' ∉ "fbd-composed".toList := by decide
  have hlines : contentLines (trim (nodesText drawing).toList) = flow drawing :=
    Text.contentLines_trim _
  obtain ⟨hcontent, hcontents⟩ := h.relaid (by decide) hcls hlines
  cases drawing with
  | nil => exact ⟨trivial, rfl⟩
  | cons n rest =>
    constructor
    · refine ⟨⟨?_, ?_, trivial⟩, trivial⟩
      · simp only [Markup.Tag.Fits, List.map]
        decide
      · rwa [Node.Fits, String.toList_ofList]
    · have hclass : ("class".toList, "fbd-composed".toList) ∉
          Markup.Tag.pairs ⟨"g", [("class", "fbd-background-art")]⟩ := by decide
      simp only [asArt, nodesContents, Node.contents, if_neg hclass, String.toList_ofList,
        List.nil_append, List.append_nil]
      exact hcontents

/-! ## Diagrams with nothing but art -/

/-- A diagram without elements and grid, on which a drawing is shown. -/
structure Shows (d : Diagram) (drawing : List Node) : Prop where
  art : d.backgroundMarkup = some (nodesText drawing)
  points : d.points = []
  forces : d.forces = []
  moments : d.moments = []
  bodies : d.allBodies = []
  hidden : d.showGrid = some false
  leads : Leads drawing

theorem gridLayer_of_hidden {d : Diagram} (style : Style) (h : d.showGrid = some false) :
    gridLayer style d = some [] := by
  have hshown : d.showGrid ≠ some true := by
    rw [h]
    decide
  rw [gridLayer, if_neg hshown]

section

variable {d : Diagram} {drawing : List Node} (style : Style) (hd : Shows d drawing)

include hd

theorem render_of_shows : d.render style = some (picture style d []).text := by
  rw [Diagram.render, gridLayer_of_hidden style hd.hidden, Option.map_some]

theorem layers_of_shows : backdrop style d [] ++ bodies style d ++ points style d ++
    forces style d ++ moments style d = definitions style d.id ::
      upper style { d with backgroundMarkup := none } [] ++ asArt drawing := by
  have hnone := hd.bodies
  unfold Diagram.allBodies at hnone
  rw [backdrop_eq, backgroundArt_eq hd.art hd.leads]
  simp only [upper, bodies, points, forces, moments, Diagram.allBodies, hd.points, hd.forces,
    hd.moments, hnone, List.filterMap_nil, List.map_nil, List.append_nil]
  rfl

theorem picture_isRoot_of_shows (h : NodesFit Inner drawing) :
    (picture style d []).IsRoot Inner "svg" := by
  have hbare : NodesFit Inner (definitions style d.id ::
      upper style { d with backgroundMarkup := none } []) :=
    layers_fit style (d := { d with backgroundMarkup := none }) rfl
      (gridLayer_of_hidden style hd.hidden)
  have hlayers : NodesFit Inner (backdrop style d [] ++ bodies style d ++ points style d ++
      forces style d ++ moments style d) := by
    rw [layers_of_shows style hd]
    exact nodesFit_append.2 ⟨hbare, (asArt_relaid h).1⟩
  simp only [picture, Node.IsRoot, Markup.Tag.Fits, List.map]
  exact ⟨by decide, hlayers⟩

/-- The groups of a composition in the picture are those of the drawing. -/
theorem contents_of_shows (h : NodesFit Inner drawing) :
    (classContents "fbd-composed".toList (picture style d []).text.toList).map contentLines =
      nodesContents "fbd-composed".toList drawing := by
  have hcls : '\n' ∉ "fbd-composed".toList := by decide
  have hroot := picture_isRoot_of_shows style hd h
  have hbare := contents_layers style (d := { d with backgroundMarkup := none }) rfl
    (gridLayer_of_hidden style hd.hidden)
  rw [picture, Markup.classContents_text (by decide) hcls hroot ?_,
    layers_of_shows style hd, nodesContents_append, hbare, (asArt_relaid h).2, List.nil_append]
  have hclass : Markup.escapeValue "fbd-diagram" = "fbd-diagram" :=
    Markup.escapeValue_eq_self (by decide)
  simp [Markup.Tag.pairs, hclass]

end

end Drawing

end FreeBody
