import FreeBody.Preset.Builtin

/-!
# Fallback presets

Fixed figures for names that no generator answers for.  Their arguments are read leniently: what
is no number, or zero, counts as left out.
-/

namespace FreeBody.Preset

/-- The number at `index` if it is not zero, or `default`. -/
def lenientAt (args : List Argument) (index : Nat) (default : Float) : Float :=
  ((args[index]?.bind Argument.toFloat?).filter (· != 0)).getD default

/-- The figure that answers to a name in lower case. -/
def fallback? (name id : String) (args : List Argument) : Option Diagram :=
  match name with
  | "incline" | "block" =>
    let friction := (args[2]?.bind Argument.toBool?).getD false
    let figure := addFriction (if friction then 30 else 0) (blockFigure id 90)
    some (figure.finish (Diagram.gridEnds_of_hidden rfl))
  | "hanging" | "mass" => some ((hangingFigure id).finish (gridEnds_hangingFigure id))
  | "pulley" => some ((pulleyFigure id).finish (gridEnds_pulleyFigure id))
  | "beam" =>
    let figure := beamFigure id 150 550 (lenientAt args 0 400)
    some (figure.finish (gridEnds_beamFigure id _ _ _))
  | _ => none

theorem fallback?_finished {name id : String} {args : List Argument} {d : Diagram}
    (h : fallback? name id args = some d) : d.IsFinished := by
  unfold fallback? at h
  split at h
  case h_7 => cases h
  all_goals exact Option.some.inj h ▸ rfl

end FreeBody.Preset
