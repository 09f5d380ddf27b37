import FreeBody.Preset.Fallback
import FreeBody.Proofs.Diagram.Plain
import FreeBody.Proofs.Preset.Registry

/-!
# Diagrams of presets

What holds of the diagrams of every generator holds of those of a registry (`Registry.Makes`).
The built-in presets and the fallback figures make plain diagrams under the id that is asked for
(`builtin_makes_plain`, `fallback_plain`).
-/

namespace FreeBody

open Drawing (Harmless)

namespace Preset

/-! ## Figures -/

open Builder (Drafts)

theorem blockFigure_drafts (id : String) (angle : Float) : (blockFigure id angle).Drafts id := by
  refine Drafts.setBody ?_ rfl rfl
  refine Drafts.addForce ?_ (by decide) _ _ _ _ _
  refine Drafts.addForce ?_ (by decide) _ _ _ _ _
  exact (Drafts.ofSize id 600 400).addPoint (by decide) _ _ _

theorem addFriction_drafts {id : String} {b : Builder} (h : b.Drafts id) (magnitude : Float) :
    (addFriction magnitude b).Drafts id :=
  h.addForce (by decide) _ _ _ _ _

theorem hangingFigure_drafts (id : String) : (hangingFigure id).Drafts id := by
  refine Drafts.setBody ?_ rfl rfl
  refine Drafts.addForce ?_ (by decide) _ _ _ _ _
  refine Drafts.addForce ?_ (by decide) _ _ _ _ _
  exact (Drafts.ofSize id 400 500).addPoint (by decide) _ _ _

theorem pulleyFigure_drafts (id : String) : (pulleyFigure id).Drafts id := by
  refine Drafts.addForce ?_ (by decide) _ _ _ _ _
  refine Drafts.addForce ?_ (by decide) _ _ _ _ _
  refine Drafts.addForce ?_ (by decide) _ _ _ _ _
  refine Drafts.addForce ?_ (by decide) _ _ _ _ _
  refine Drafts.addPoint ?_ (by decide) _ _ _
  exact (Drafts.ofSize id 700 400).addPoint (by decide) _ _ _

theorem beamFigure_drafts (id : String) (left right length : Float) :
    (beamFigure id left right length).Drafts id := by
  refine Drafts.showGrid ?_ true
  refine Drafts.setBody ?_ rfl rfl
  refine Drafts.addForce ?_ (by decide) _ _ _ _ _
  refine Drafts.addForce ?_ (by decide) _ _ _ _ _
  refine Drafts.addForce ?_ (by decide) _ _ _ _ _
  refine Drafts.addPoint ?_ (by decide) _ _ _
  exact (Drafts.ofSize id 700 400).addPoint (by decide) _ _ _

/-! ## Generators -/

/-- A plain diagram under the id that is asked for. -/
def PlainAs (id : String) (d : Diagram) : Prop := d.id = id ∧ d.Plain

variable {id : String} {args : List Argument} {d : Diagram}

theorem incline_plain (h : incline id args = .ok d) : PlainAs id d := by
  obtain ⟨angle, -, h⟩ := exists_of_bind_eq_ok h
  obtain ⟨-, -, h⟩ := exists_of_bind_eq_ok h
  obtain ⟨friction, -, h⟩ := exists_of_bind_eq_ok h
  obtain rfl := Except.ok.inj h
  have hblock := blockFigure_drafts id (90 + angle)
  cases friction with
  | false => exact hblock.finish _
  | true => exact (addFriction_drafts hblock 30).finish _

theorem hanging_plain (h : hanging id args = .ok d) : PlainAs id d := by
  obtain ⟨-, -, h⟩ := exists_of_bind_eq_ok h
  obtain ⟨-, -, h⟩ := exists_of_bind_eq_ok h
  obtain rfl := Except.ok.inj h
  exact (hangingFigure_drafts id).finish _

theorem pulley_plain (h : pulley id args = .ok d) : PlainAs id d := by
  obtain ⟨-, -, h⟩ := exists_of_bind_eq_ok h
  obtain ⟨-, -, h⟩ := exists_of_bind_eq_ok h
  obtain rfl := Except.ok.inj h
  exact ((pulleyFigure_drafts id).setBody rfl rfl).finish _

theorem beam_plain (h : beam id args = .ok d) : PlainAs id d := by
  obtain ⟨length, -, h⟩ := exists_of_bind_eq_ok h
  obtain ⟨-, -, h⟩ := exists_of_bind_eq_ok h
  split at h
  · cases h
  · obtain rfl := Except.ok.inj h
    exact (beamFigure_drafts id _ _ length).finish _

/-- The fallback figures are plain. -/
theorem fallback_plain {name : String} (h : fallback? name id args = some d) : PlainAs id d := by
  unfold fallback? at h
  split at h
  · obtain rfl := Option.some.inj h
    exact (addFriction_drafts (blockFigure_drafts id 90) _).finish _
  · obtain rfl := Option.some.inj h
    exact (addFriction_drafts (blockFigure_drafts id 90) _).finish _
  · obtain rfl := Option.some.inj h
    exact (hangingFigure_drafts id).finish _
  · obtain rfl := Option.some.inj h
    exact (hangingFigure_drafts id).finish _
  · obtain rfl := Option.some.inj h
    exact (pulleyFigure_drafts id).finish _
  · obtain rfl := Option.some.inj h
    exact (beamFigure_drafts id _ _ _).finish _
  · cases h

end Preset

/-- The built-in presets make plain diagrams. -/
theorem Registry.builtin_plain : Registry.builtin.Makes Preset.PlainAs := by
  refine makes_iff.2 (forall_builtin ?_ ?_ ?_ ?_)
  · exact Generator.makes_ofResult fun _ _ _ => Preset.incline_plain
  · exact Generator.makes_ofResult fun _ _ _ => Preset.hanging_plain
  · exact Generator.makes_ofResult fun _ _ _ => Preset.pulley_plain
  · exact Generator.makes_ofResult fun _ _ _ => Preset.beam_plain

end FreeBody
