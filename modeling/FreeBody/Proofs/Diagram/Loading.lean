import FreeBody.Proofs.Diagram.Storage
import FreeBody.Proofs.Json.Loading

/-!
# When a stored diagram is loaded

A diagram is loaded from its stored form just if every number that it must have is finite
(`load_store_iff`).  A number that it may have and that is not finite is loaded as none.
-/

namespace FreeBody

open Json (Record)
open Json.Codec (restores_text restores_flag loadsIff_real loadsIff_list optionLoadsIff_real)
open Json.Record (loadsIff_required loadsIff_optional loadsIff_defaulted loadsIff_listed)

/-! ## Numbers that there must be -/

/-- The numbers that a moment must have. -/
def Moment.needed (m : Moment) : List Float := [m.magnitude]

/-- The numbers that a body must have. -/
def Body.needed (b : Body) : List Float :=
  [b.x, b.y] ++ (b.points.getD []).flatMap Vec.numbers

/-- The numbers that a diagram must have. -/
def Diagram.needed (d : Diagram) : List Float :=
  [d.width, d.height] ++ d.points.flatMap Point.numbers ++ d.forces.flatMap Force.numbers ++
    d.moments.flatMap Moment.needed ++ d.allBodies.flatMap Body.needed

/-- What a diagram must have is among what it has. -/
theorem Diagram.mem_numbers_of_mem_needed {d : Diagram} {x : Float} (h : x ∈ d.needed) :
    x ∈ d.numbers := by
  simp only [needed, numbers, List.mem_append, List.mem_flatMap] at h ⊢
  rcases h with (((h | h) | h) | ⟨m, hm, hx⟩) | ⟨b, hb, hx⟩
  · exact .inl (.inl (.inl (.inl h)))
  · exact .inl (.inl (.inl (.inr h)))
  · exact .inl (.inl (.inr h))
  · exact .inl (.inr ⟨m, hm, List.mem_singleton.1 hx ▸ List.mem_cons_self⟩)
  · refine .inr ⟨b, hb, ?_⟩
    simp only [Body.needed, Body.numbers, List.mem_append] at hx ⊢
    exact hx.imp_left .inl

/-! ## Elements -/

section

variable {ρ : Type} (name : String) (r : ρ)

theorem loadsIff_text (get : ρ → String) :
    (Record.required name .text get).LoadsIff r True :=
  loadsIff_required (restores_text (get r)).loadsIff

theorem loadsIff_text? (get : ρ → Option String) :
    (Record.optional name .text get).LoadsIff r (∀ s ∈ get r, True) :=
  loadsIff_optional fun s _ => (restores_text s).loadsIff.option nofun

theorem loadsIff_real? (get : ρ → Option Float) :
    (Record.optional name .real get).LoadsIff r (∀ x ∈ get r, True) :=
  loadsIff_optional fun x _ => optionLoadsIff_real x

theorem loadsIff_word? {α : Type} [Keyword α] (get : ρ → Option α)
    (h : ∀ a : α, (Keyword.codec α).Restores a) :
    (Record.optional name (Keyword.codec α) get).LoadsIff r (∀ a ∈ get r, True) :=
  loadsIff_optional fun a _ => (h a).loadsIff.option nofun

theorem loadsIff_flag? (get : ρ → Option Bool) :
    (Record.optional name .flag get).LoadsIff r (∀ b ∈ get r, True) :=
  loadsIff_optional fun b _ => (restores_flag b).loadsIff.option nofun

end

theorem Vec.loadsIff (v : Vec) :
    Vec.record.codec.LoadsIff v (∀ x ∈ v.numbers, x.isFinite = true) := by
  have hfields : Vec.record.LoadsIff v _ :=
    ((loadsIff_required (loadsIff_real v.x)).map Vec.mk).seq
      (loadsIff_required (loadsIff_real v.y))
  refine (hfields.codec (by decide)).congr ?_
  simp [Vec.numbers]

theorem Point.loadsIff (p : Point) :
    Point.record.codec.LoadsIff p (∀ x ∈ p.numbers, x.isFinite = true) := by
  have hfields : Point.record.LoadsIff p _ :=
    ((loadsIff_text "id" p Point.id).map Point.mk).seq
      (loadsIff_required (loadsIff_real p.x)) |>.seq
      (loadsIff_required (loadsIff_real p.y)) |>.seq
      (loadsIff_text? "label" p Point.label) |>.seq
      (loadsIff_defaulted (PointKind.restores p.kind).loadsIff)
  refine (hfields.codec (by decide)).congr ?_
  simp [Point.numbers]

theorem Force.loadsIff (f : Force) :
    Force.record.codec.LoadsIff f (∀ x ∈ f.numbers, x.isFinite = true) := by
  have hfields : Force.record.LoadsIff f _ :=
    ((loadsIff_text "id" f Force.id).map Force.mk).seq
      (loadsIff_text "pointId" f Force.point) |>.seq
      (loadsIff_required (loadsIff_real f.magnitude)) |>.seq
      (loadsIff_required (loadsIff_real f.angle)) |>.seq
      (loadsIff_text "label" f Force.label) |>.seq
      (loadsIff_word? "type" f Force.kind ForceKind.restores) |>.seq
      (loadsIff_text? "color" f Force.color) |>.seq
      (loadsIff_word? "units" f Force.units Units.restores)
  refine (hfields.codec (by decide)).congr ?_
  simp [Force.numbers]

theorem Moment.loadsIff (m : Moment) :
    Moment.record.codec.LoadsIff m (∀ x ∈ m.needed, x.isFinite = true) := by
  have hfields : Moment.record.LoadsIff m _ :=
    ((loadsIff_text "id" m Moment.id).map Moment.mk).seq
      (loadsIff_text "pointId" m Moment.point) |>.seq
      (loadsIff_required (loadsIff_real m.magnitude)) |>.seq
      (loadsIff_required (Rotation.restores m.direction).loadsIff) |>.seq
      (loadsIff_text "label" m Moment.label) |>.seq
      (loadsIff_real? "radius" m Moment.radius)
  refine (hfields.codec (by decide)).congr ?_
  simp [Moment.needed]

theorem Body.loadsIff (b : Body) :
    Body.record.codec.LoadsIff b (∀ x ∈ b.needed, x.isFinite = true) := by
  have hcorners : (Record.optional "points" Vec.record.codec.list Body.points).LoadsIff b
      (∀ corners ∈ b.points, ∀ v ∈ corners, ∀ x ∈ v.numbers, x.isFinite = true) :=
    loadsIff_optional fun corners _ => (loadsIff_list fun v _ => Vec.loadsIff v).option nofun
  have hfields : Body.record.LoadsIff b _ :=
    ((loadsIff_required (BodyKind.restores b.kind).loadsIff).map Body.mk).seq
      (loadsIff_required (loadsIff_real b.x)) |>.seq
      (loadsIff_required (loadsIff_real b.y)) |>.seq
      (loadsIff_real? "width" b Body.width) |>.seq
      (loadsIff_real? "height" b Body.height) |>.seq
      (loadsIff_real? "radius" b Body.radius) |>.seq hcorners |>.seq
      (loadsIff_text? "fill" b Body.fill) |>.seq
      (loadsIff_text? "stroke" b Body.stroke) |>.seq
      (loadsIff_real? "angle" b Body.angle)
  refine (hfields.codec (by decide)).congr ?_
  cases hpoints : b.points <;>
    simp [Body.needed, hpoints, List.forall_mem_flatMap, and_assoc, -List.mem_flatMap]

/-! ## Diagrams -/

namespace Diagram

theorem loadsIff (d : Diagram) :
    Diagram.record.codec.LoadsIff d (∀ x ∈ d.needed, x.isFinite = true) := by
  have hfields : record.LoadsIff d _ :=
    ((loadsIff_text "id" d Diagram.id).map Diagram.mk).seq
      (loadsIff_required (loadsIff_real d.width)) |>.seq
      (loadsIff_required (loadsIff_real d.height)) |>.seq
      (loadsIff_defaulted (loadsIff_list fun p _ => Point.loadsIff p)) |>.seq
      (loadsIff_defaulted (loadsIff_list fun f _ => Force.loadsIff f)) |>.seq
      (loadsIff_defaulted (loadsIff_list fun m _ => Moment.loadsIff m)) |>.seq
      (loadsIff_optional fun b _ => (Body.loadsIff b).option nofun) |>.seq
      (loadsIff_listed fun b _ => Body.loadsIff b) |>.seq
      (loadsIff_flag? "showAxes" d showAxes) |>.seq
      (loadsIff_flag? "showGrid" d showGrid) |>.seq
      (loadsIff_flag? "showAngles" d showAngles) |>.seq
      (loadsIff_text? "backgroundColor" d backgroundColor) |>.seq
      (loadsIff_text? "backgroundSVG" d backgroundMarkup) |>.seq
      (loadsIff_text? "customSVG" d renderedMarkup)
  refine (hfields.codec (by decide)).congr ?_
  simp [needed, allBodies, List.forall_mem_append, List.forall_mem_flatMap, and_assoc,
    -List.mem_flatMap, -List.mem_append, -List.flatMap_append]

/-- **A stored diagram is loaded just if the numbers that it must have are finite.** -/
theorem load_store_iff (d : Diagram) :
    (∃ out, load d.store = .ok out) ↔ ∀ x ∈ d.needed, x.isFinite = true :=
  (loadsIff d).load_iff

end Diagram

end FreeBody
