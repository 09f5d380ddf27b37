import FreeBody.Preset.Argument

/-!
# Layouts

A composition shows the diagrams of several presets side by side, one below the other, in a grid
of cells, or in columns with captions.
-/

namespace FreeBody

/-- How the diagrams of a composition are arranged. -/
inductive Layout
  | series
  | parallel
  | grid (columns : Nat)
  | comparison (title : Option String)
  deriving DecidableEq, Repr

/-- The id of a composition that was written without one. -/
def Layout.defaultId : Layout → String
  | series => "combo-series"
  | parallel => "combo-parallel"
  | grid _ => "combo-grid"
  | comparison _ => "combo-compare"

/-- One diagram of a composition: the preset that makes it, and a caption. -/
structure Entry where
  preset : String := ""
  args : List Argument := []
  label : Option String := none

/-- The label of an entry, or the name of its preset. -/
def Entry.caption (e : Entry) : String := e.label.getD e.preset

/-- A composition as it is asked for. -/
structure Combination where
  layout : Layout
  entries : List Entry

end FreeBody
