import FreeBody.Diagram.Storage
import FreeBody.Proofs.Json.Record

/-!
# Stored diagrams are loaded again

Each type of element is restored by its record: every field is read with the name and the codec
it is written with, and a field that is left out is one that may be missing.  So a diagram comes
back from its stored form, whatever its texts are and whichever optional fields it has, as long
as its numbers do (`load_store`).
-/

namespace FreeBody

open Json (ReadsBack Record)
open Json.Codec (restores_text restores_real restores_flag restores_list)
open Json.Record (restores_required restores_optional restores_defaulted restores_listed)

/-! ## Numbers -/

def Vec.numbers (v : Vec) : List Float := [v.x, v.y]

def Point.numbers (p : Point) : List Float := [p.x, p.y]

def Force.numbers (f : Force) : List Float := [f.magnitude, f.angle]

def Moment.numbers (m : Moment) : List Float := m.magnitude :: m.radius.toList

def Body.numbers (b : Body) : List Float :=
  [b.x, b.y] ++ (b.width.toList ++ b.height.toList ++ b.radius.toList ++ b.angle.toList) ++
    (b.points.getD []).flatMap Vec.numbers

/-- All numbers in a diagram. -/
def Diagram.numbers (d : Diagram) : List Float :=
  [d.width, d.height] ++ d.points.flatMap Point.numbers ++ d.forces.flatMap Force.numbers ++
    d.moments.flatMap Moment.numbers ++ d.allBodies.flatMap Body.numbers

/-! ## Elements -/

theorem Keyword.restores {α : Type} [Keyword α]
    (h : ∀ a : α, Keyword.ofWord? (Keyword.word a) = some a) (a : α) :
    (Keyword.codec α).Restores a := Json.Codec.restores_word (h a)

theorem PointKind.restores : ∀ k, (Keyword.codec PointKind).Restores k :=
  Keyword.restores (by rintro (_ | _) <;> rfl)

theorem ForceKind.restores : ∀ k, (Keyword.codec ForceKind).Restores k :=
  Keyword.restores (by rintro (_ | _) <;> rfl)

theorem BodyKind.restores : ∀ k, (Keyword.codec BodyKind).Restores k :=
  Keyword.restores (by rintro (_ | _) <;> rfl)

theorem Rotation.restores : ∀ k, (Keyword.codec Rotation).Restores k :=
  Keyword.restores (by rintro (_ | _) <;> rfl)

theorem Units.restores : ∀ k, (Keyword.codec Units).Restores k :=
  Keyword.restores (by rintro (_ | _) <;> rfl)

section

variable {ρ : Type} (name : String) (r : ρ)

theorem restores_text? (get : ρ → Option String) :
    (Record.optional name .text get).Restores r (get r) :=
  restores_optional nofun fun s _ => restores_text s

theorem restores_real? {get : ρ → Option Float} (h : ∀ x ∈ (get r).toList, ReadsBack x) :
    (Record.optional name .real get).Restores r (get r) :=
  restores_optional nofun fun x hx => restores_real (h x (Option.mem_toList.2 hx))

theorem restores_word? {α : Type} [Keyword α] {get : ρ → Option α}
    (h : ∀ a : α, (Keyword.codec α).Restores a) :
    (Record.optional name (Keyword.codec α) get).Restores r (get r) :=
  restores_optional nofun fun a _ => h a

theorem restores_flag? (get : ρ → Option Bool) :
    (Record.optional name .flag get).Restores r (get r) :=
  restores_optional nofun fun b _ => restores_flag b

end

theorem Vec.restores {v : Vec} (h : ∀ x ∈ v.numbers, ReadsBack x) :
    Vec.record.codec.Restores v := by
  simp only [Vec.numbers, List.forall_mem_cons] at h
  obtain ⟨hx, hy, -⟩ := h
  have hfields : Vec.record.Restores v v :=
    ((restores_required (restores_real hx)).map Vec.mk).seq
      (restores_required (restores_real hy))
  exact hfields.codec (by decide)

theorem Point.restores {p : Point} (h : ∀ x ∈ p.numbers, ReadsBack x) :
    Point.record.codec.Restores p := by
  simp only [Point.numbers, List.forall_mem_cons] at h
  obtain ⟨hx, hy, -⟩ := h
  have hfields : Point.record.Restores p p :=
    ((restores_required (restores_text p.id)).map Point.mk).seq
      (restores_required (restores_real hx)) |>.seq
      (restores_required (restores_real hy)) |>.seq
      (restores_text? "label" p Point.label) |>.seq
      (restores_defaulted (PointKind.restores p.kind))
  exact hfields.codec (by decide)

theorem Force.restores {f : Force} (h : ∀ x ∈ f.numbers, ReadsBack x) :
    Force.record.codec.Restores f := by
  simp only [Force.numbers, List.forall_mem_cons] at h
  obtain ⟨hmagnitude, hangle, -⟩ := h
  have hfields : Force.record.Restores f f :=
    ((restores_required (restores_text f.id)).map Force.mk).seq
      (restores_required (restores_text f.point)) |>.seq
      (restores_required (restores_real hmagnitude)) |>.seq
      (restores_required (restores_real hangle)) |>.seq
      (restores_required (restores_text f.label)) |>.seq
      (restores_word? "type" f ForceKind.restores) |>.seq
      (restores_text? "color" f Force.color) |>.seq
      (restores_word? "units" f Units.restores)
  exact hfields.codec (by decide)

theorem Moment.restores {m : Moment} (h : ∀ x ∈ m.numbers, ReadsBack x) :
    Moment.record.codec.Restores m := by
  simp only [Moment.numbers, List.forall_mem_cons] at h
  obtain ⟨hmagnitude, hradius⟩ := h
  have hfields : Moment.record.Restores m m :=
    ((restores_required (restores_text m.id)).map Moment.mk).seq
      (restores_required (restores_text m.point)) |>.seq
      (restores_required (restores_real hmagnitude)) |>.seq
      (restores_required (Rotation.restores m.direction)) |>.seq
      (restores_required (restores_text m.label)) |>.seq
      (restores_real? "radius" m hradius)
  exact hfields.codec (by decide)

/-- A list of corners that is there but empty is written as such, and not left out. -/
theorem restores_corners {b : Body}
    (h : ∀ x ∈ (b.points.getD []).flatMap Vec.numbers, ReadsBack x) :
    (Record.optional "points" Vec.record.codec.list Body.points).Restores b b.points := by
  refine restores_optional nofun fun corners hcorners => restores_list fun v hv => ?_
  rw [Option.mem_def.1 hcorners] at h
  exact Vec.restores fun x hx => h x (List.mem_flatMap.2 ⟨v, hv, hx⟩)

theorem Body.restores {b : Body} (h : ∀ x ∈ b.numbers, ReadsBack x) :
    Body.record.codec.Restores b := by
  simp only [Body.numbers, List.forall_mem_append, List.forall_mem_cons] at h
  obtain ⟨⟨⟨hx, hy, -⟩, ⟨⟨hwidth, hheight⟩, hradius⟩, hangle⟩, hcorners⟩ := h
  have hfields : Body.record.Restores b b :=
    ((restores_required (BodyKind.restores b.kind)).map Body.mk).seq
      (restores_required (restores_real hx)) |>.seq
      (restores_required (restores_real hy)) |>.seq
      (restores_real? "width" b hwidth) |>.seq
      (restores_real? "height" b hheight) |>.seq
      (restores_real? "radius" b hradius) |>.seq
      (restores_corners hcorners) |>.seq
      (restores_text? "fill" b Body.fill) |>.seq
      (restores_text? "stroke" b Body.stroke) |>.seq
      (restores_real? "angle" b hangle)
  exact hfields.codec (by decide)

/-! ## Diagrams -/

namespace Diagram

theorem restores {d : Diagram} (h : ∀ x ∈ d.numbers, ReadsBack x) :
    Diagram.record.codec.Restores d := by
  simp only [numbers, allBodies, List.forall_mem_append, List.forall_mem_cons, List.mem_flatMap,
    forall_exists_index, and_imp, List.flatMap_append] at h
  obtain ⟨⟨⟨⟨⟨hwidth, hheight, -⟩, hpoints⟩, hforces⟩, hmoments⟩, hbody, hbodies⟩ := h
  have hfields : record.Restores d d :=
    ((restores_required (restores_text d.id)).map Diagram.mk).seq
      (restores_required (restores_real hwidth)) |>.seq
      (restores_required (restores_real hheight)) |>.seq
      (restores_defaulted (restores_list fun p hp =>
        Point.restores fun x hx => hpoints x p hp hx)) |>.seq
      (restores_defaulted (restores_list fun f hf =>
        Force.restores fun x hx => hforces x f hf hx)) |>.seq
      (restores_defaulted (restores_list fun m hm =>
        Moment.restores fun x hx => hmoments x m hm hx)) |>.seq
      (restores_optional Body.record.codec_read_null_ne fun b hb =>
        Body.restores fun x hx => hbody x b (Option.mem_toList.2 hb) hx) |>.seq
      (restores_listed fun b hb => Body.restores fun x hx => hbodies x b hb hx) |>.seq
      (restores_flag? "showAxes" d showAxes) |>.seq
      (restores_flag? "showGrid" d showGrid) |>.seq
      (restores_flag? "showAngles" d showAngles) |>.seq
      (restores_text? "backgroundColor" d backgroundColor) |>.seq
      (restores_text? "backgroundSVG" d backgroundMarkup) |>.seq
      (restores_text? "customSVG" d renderedMarkup)
  exact hfields.codec (by decide)

/-- **Loading undoes storing.**  Every diagram with finite numbers comes back whole, if these
numbers are read back as they are written. -/
theorem load_store {d : Diagram} (finite : ∀ x ∈ d.numbers, x.isFinite = true)
    (kept : ∀ x ∈ d.numbers, x.isFinite = true → ReadsBack x) : load d.store = .ok d :=
  (restores fun x hx => kept x hx (finite x hx)).load_eq

/-- A diagram with escapes in its texts, a body without corners and one with an empty list of
them. -/
def patchedRamp : Diagram where
  id := "ramp \"1\""
  width := 600
  height := 0.1
  points := [⟨"P", -2.5, 1e21, some "tab\there", .pivot⟩]
  forces := [⟨"F", "P", 80, -90, "", none, some "#ff8c00", some .pixels⟩]
  moments := [⟨"M", "P", 5, .ccw, "τ\x07", none⟩]
  body := some { kind := .custom, x := 0, y := 1, points := some [], fill := some "" }
  bodies := [{ kind := .triangle, x := 0.5, y := 1, points := some [⟨0, 0⟩, ⟨3, 4⟩] },
    .circle 1 2 3]
  showGrid := some false
  backgroundMarkup := some "<g>\n</g>"

theorem load_store_patchedRamp :
    (∀ x ∈ patchedRamp.numbers, x.isFinite = true ∧ ReadsBack x) ∧
      load patchedRamp.store = .ok patchedRamp := by
  have h : ∀ x ∈ patchedRamp.numbers, x.isFinite = true ∧ ReadsBack x := by
    intro x hx
    replace hx : x ∈ [600, 0.1, -2.5, 1e21, 80, -90, 5, 0, 1, 0.5, 1, 0, 0, 3, 4, 1, 2, 3] := hx
    simp only [List.mem_cons, List.not_mem_nil, or_false] at hx
    rcases hx with rfl | rfl | rfl | rfl | rfl | rfl | rfl | rfl | rfl | rfl | rfl | rfl | rfl |
        rfl | rfl | rfl | rfl | rfl <;>
      exact ⟨by decide, rfl⟩
  exact ⟨h, load_store (fun x hx => (h x hx).1) fun x hx _ => (h x hx).2⟩

end Diagram

end FreeBody
