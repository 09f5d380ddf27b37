import FreeBody.Diagram.Builder
import FreeBody.Proofs.Drawing.Art

/-!
# Plain diagrams

A diagram is plain if it leaves all choices of style open, its ids are harmless and its picture is
its own (`Diagram.Plain`).  The steps of a builder that set no colour keep a diagram so, and the
finished diagram is plain (`Builder.Drafts.finish`).
-/

namespace FreeBody

open Drawing (Harmless)

/-- Whether a diagram has no colours and no art of its own, and no id that could refer to
something. -/
structure Diagram.Unstyled (d : Diagram) : Prop where
  art : d.backgroundMarkup = none
  color : d.backgroundColor = none
  points : ∀ p ∈ d.points, Harmless p.id
  forces : ∀ f ∈ d.forces, Harmless f.id ∧ f.color = none
  moments : d.moments = []
  bodies : ∀ b ∈ d.allBodies, b.fill = none ∧ b.stroke = none

/-- Whether a diagram without style is shown as it is. -/
structure Diagram.Plain (d : Diagram) : Prop where
  unstyled : d.Unstyled
  grid : d.GridEnds {}
  markup : d.markup = d.render {}

theorem Diagram.Plain.exists_picture {d : Diagram} (h : d.Plain) :
    ∃ picture, d.markup = some picture ∧ d.render {} = some picture := by
  obtain ⟨picture, hpicture⟩ := Option.isSome_iff_exists.1 (Diagram.render_isSome_iff.2 h.grid)
  exact ⟨picture, h.markup.trans hpicture, hpicture⟩

theorem Diagram.Plain.isRendered {d : Diagram} (h : d.Plain) : d.IsRendered := by
  obtain ⟨picture, hmarkup, hpicture⟩ := h.exists_picture
  exact ⟨picture, hmarkup, d, {}, h.unstyled.art, hpicture⟩

/-- The strings of a diagram without style are its ids. -/
theorem Diagram.Unstyled.harmless {d : Diagram} (h : d.Unstyled) : ∀ v ∈ d.values, Harmless v := by
  intro v hv
  simp only [Diagram.values, h.color, h.moments, List.mem_append, List.mem_flatMap, List.map_nil,
    Option.toList_none, List.not_mem_nil, false_or, or_false, List.mem_cons, Option.mem_toList,
    List.mem_map] at hv
  rcases hv with (⟨p, hp, rfl⟩ | ⟨f, hf, rfl | hcolor⟩) | ⟨b, hb, hfill | hstroke⟩
  · exact h.points p hp
  · exact (h.forces f hf).1
  · rw [(h.forces f hf).2] at hcolor
    cases hcolor
  · rw [(h.bodies b hb).1] at hfill
    cases hfill
  · rw [(h.bodies b hb).2] at hstroke
    cases hstroke

/-- Drawing a diagram without style makes it plain. -/
theorem Diagram.Unstyled.plain {d : Diagram} (h : d.Unstyled) (hnone : d.renderedMarkup = none)
    (hgrid : d.GridEnds {}) : (d.finished hgrid).Plain where
  unstyled := { h with }
  grid := hgrid
  markup := by
    rw [Diagram.markup_finished, Diagram.render_finished, Diagram.markup_of_none hnone]

namespace Builder

/-- Whether a builder is at work on the picture of a diagram `id` without style. -/
structure Drafts (id : String) (b : Builder) : Prop where
  id : b.diagram.id = id
  unstyled : b.diagram.Unstyled
  unrendered : b.diagram.renderedMarkup = none

namespace Drafts

variable {id : String} {b : Builder}

theorem ofSize (id : String) (width height : Float) :
    Drafts id (Builder.ofSize id width height) where
  id := rfl
  unstyled :=
    { art := rfl
      color := rfl
      points := fun _ hp => absurd hp List.not_mem_nil
      forces := fun _ hf => absurd hf List.not_mem_nil
      moments := rfl
      bodies := fun _ hb => absurd hb List.not_mem_nil }
  unrendered := rfl

theorem addPoint (h : Drafts id b) {name : String} (hname : Harmless name) (x y : Float)
    (label : Option String) : Drafts id (b.addPoint name x y label) := by
  refine ⟨h.id, { h.unstyled with points := fun p hp => ?_ }, h.unrendered⟩
  rcases List.mem_append.1 hp with hp | hp
  · exact h.unstyled.points p hp
  · obtain rfl := List.mem_singleton.1 hp
    exact hname

theorem addForce (h : Drafts id b) {name : String} (hname : Harmless name) (point : String)
    (magnitude angle : Float) (label : String) (kind : Option ForceKind) :
    Drafts id (b.addForce name point magnitude angle label kind) := by
  refine ⟨h.id, { h.unstyled with forces := fun f hf => ?_ }, h.unrendered⟩
  rcases List.mem_append.1 hf with hf | hf
  · exact h.unstyled.forces f hf
  · obtain rfl := List.mem_singleton.1 hf
    exact ⟨hname, rfl⟩

theorem setBody (h : Drafts id b) {body : Body} (hfill : body.fill = none)
    (hstroke : body.stroke = none) : Drafts id (b.setBody body) := by
  refine ⟨h.id, { h.unstyled with bodies := fun c hc => ?_ }, h.unrendered⟩
  rcases List.mem_append.1 hc with hc | hc
  · obtain rfl := Option.some.inj (Option.mem_toList.1 hc)
    exact ⟨hfill, hstroke⟩
  · exact h.unstyled.bodies c (List.mem_append_right _ hc)

theorem showGrid (h : Drafts id b) (on : Bool) : Drafts id (b.showGrid on) :=
  ⟨h.id, { h.unstyled with }, h.unrendered⟩

/-- The finished diagram is plain. -/
theorem finish (h : Drafts id b) (hgrid : b.diagram.GridEnds {}) :
    (b.finish hgrid).id = id ∧ (b.finish hgrid).Plain :=
  ⟨h.id, h.unstyled.plain h.unrendered hgrid⟩

end Drafts

end Builder

end FreeBody
