import FreeBody.Proofs.Compact.Reimport
import FreeBody.Proofs.Preset.Builtin

/-!
# Diagrams of compact texts

A compact text gives a plain diagram under the id that is asked for (`plainAs_of_read`): the custom
form has no colours and only words for ids, and the others come from a registry of plain diagrams
or from the fallback figures.
-/

namespace FreeBody.Compact

open Preset (PlainAs)

theorem IsWord.harmless {w : String} (hw : IsWord w) : Drawing.Harmless w := by
  have hnot {c : Char} (hc : isIdentChar c = false) : c ∉ w.toList := fun hmem => by
    rw [hw.ident c hmem] at hc
    cases hc
  exact ⟨hnot (by decide), hnot (by decide), hnot (by decide)⟩

variable {r : Registry} {text id : String} {d : Diagram} {p : Parsed}

/-- The custom form has no place for style. -/
theorem IsCustom.plainAs (h : IsCustom id d) : PlainAs id d := by
  rw [← h.redrawn]
  refine Builder.Drafts.finish ⟨rfl, ?_, rfl⟩ _
  exact {
    art := rfl
    color := rfl
    points := fun q hq => (h.points q hq).id.harmless
    forces := fun f hf => ⟨(h.forces f hf).id.harmless, (h.forces f hf).color⟩
    moments := rfl
    bodies := fun _ hb => absurd hb List.not_mem_nil }

theorem plainAs_of_runPreset (hr : r.Makes PlainAs) {name : String} {args : List Argument}
    (h : runPreset r name id args = .ok d) : PlainAs id d := by
  rcases runPreset_eq_ok h with hmade | hfallback
  · exact hr _ _ _ _ hmade
  · exact Preset.fallback_plain hfallback

/-- **Diagrams of compact texts are plain.** -/
theorem plainAs_of_read (hr : r.Makes PlainAs) (h : read r text id = .ok p) :
    PlainAs id p.diagram := by
  rcases read_cases h with ⟨-, call, d, -, -, hd, rfl⟩ | ⟨-, hsections⟩
  · exact plainAs_of_runPreset hr hd
  · exact (isCustom_of_readSections hsections).plainAs

end FreeBody.Compact
