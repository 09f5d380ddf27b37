import FreeBody.Drawing.Style
import FreeBody.Markup.Coordinate
import FreeBody.Markup.Tree

/-!
# The grid

The lines of a grid keep a distance: the loop that draws them adds it up until the sum is no longer
below the size of the canvas.  A sum of doubles need not get there, and then the loop never ends
and there are no lines: they are there exactly if some sum is not below the size
(`gridLines_isSome_iff`).
-/

namespace FreeBody

/-- The sum that a loop has after `n` additions, if it starts with one step. -/
def Decimal.sumAfter (step : Float) : Nat → Float
  | 0 => step
  | n + 1 => sumAfter step n + step

namespace Drawing

open Decimal (sumAfter)
open Markup (Node coordinate)

/-! ## The loop -/

/-- What a loop draws: a line at each step, up to a bound. -/
structure Ruling where
  line : Float → String
  step : Float
  bound : Float

/-- Draws a line at each of the sums `x, x + step, …` that stay below the bound, behind the lines
that are `drawn` (last first).  There is no result if the loop never ends. -/
def Ruling.draw (r : Ruling) (x : Float) (drawn : List String) : Option (List String) :=
  if x < r.bound then r |>.draw (x + r.step) (r.line x :: drawn)
  else some drawn.reverse
partial_fixpoint

/-- The lines that keep the distance `step`. -/
def gridLines (line : Float → String) (step bound : Float) : Option (List String) :=
  (Ruling.mk line step bound).draw step []

/-- Whether the loop that starts at `step` and adds `step` ends at `bound`. -/
def Ends (step bound : Float) : Prop := ∃ n, ¬ sumAfter step n < bound

section

variable {r : Ruling}

theorem Ruling.isSome_draw {i n : Nat} (h : ¬ sumAfter r.step (i + n) < r.bound)
    (drawn : List String) : (r.draw (sumAfter r.step i) drawn).isSome = true := by
  induction n generalizing i drawn with
  | zero =>
    rw [Nat.add_zero] at h
    rw [draw, if_neg h]
    rfl
  | succ n ih =>
    rw [draw]
    split
    · refine ih (i := i + 1) ?_ _
      rwa [Nat.add_right_comm, Nat.add_assoc]
    · rfl

/-- A loop with a result has come to a sum that is not below the bound. -/
theorem Ruling.ends_of_draw {x : Float} {drawn lines : List String}
    (h : r.draw x drawn = some lines) {i : Nat} (hx : x = sumAfter r.step i) :
    Ends r.step r.bound := by
  refine draw.partial_correctness r
    (fun x _ _ => ∀ i, x = sumAfter r.step i → Ends r.step r.bound) ?_ x drawn lines h i hx
  intro loop ih x drawn lines hstep i hx
  split at hstep
  · exact ih _ _ _ hstep (i + 1) (congrArg (· + r.step) hx)
  next hstop => exact ⟨i, hx ▸ hstop⟩

theorem gridLines_isSome_iff (line : Float → String) {step bound : Float} :
    (gridLines line step bound).isSome = true ↔ Ends step bound := by
  constructor
  · intro h
    obtain ⟨lines, hlines⟩ := Option.isSome_iff_exists.1 h
    exact Ruling.ends_of_draw (r := ⟨line, step, bound⟩) (i := 0) hlines rfl
  · rintro ⟨n, hn⟩
    refine Ruling.isSome_draw (r := ⟨line, step, bound⟩) (i := 0) (n := n) ?_ []
    rwa [Nat.zero_add]

end

/-! ## The drawing -/

/-- The line from top to bottom at `x`. -/
def downLine (height x : Float) : String :=
  "M" ++ coordinate x ++ ",0 L" ++ coordinate x ++ "," ++ coordinate height

/-- The line from left to right at `y`. -/
def acrossLine (width y : Float) : String :=
  "M0," ++ coordinate y ++ " L" ++ coordinate width ++ "," ++ coordinate y

/-- The lines of the grid as a path. -/
def gridPath (step width height : Float) : Option String := do
  let down ← gridLines (downLine height) step width
  let across ← gridLines (acrossLine width) step height
  pure (String.intercalate " " (down ++ across))

/-- The path of a grid, drawn. -/
def gridNode (style : Style) (path : String) : Node :=
  .leaf ⟨"path", [
    ("class", "fbd-grid"),
    ("d", path),
    ("stroke", style.gridColor),
    ("stroke-width", "1"),
    ("fill", "none"),
    ("opacity", "0.5")]⟩

/-- The grid, if its lines keep a distance. -/
def grid (style : Style) (width height : Float) : Option (List Node) :=
  if style.gridSpacing ≤ 0 then some []
  else (gridPath style.gridSpacing width height).map fun path => [gridNode style path]

/-- The layer of the grid in the picture of a diagram: nothing, unless the diagram shows it. -/
def gridLayer (style : Style) (d : Diagram) : Option (List Node) :=
  if d.showGrid = some true then grid style d.width d.height else some []

end Drawing

/-- Whether the loops that draw the grid of a diagram end, if it shows one whose lines keep a
distance. -/
def Diagram.GridEnds (d : Diagram) (style : Style) : Prop :=
  d.showGrid = some true → ¬ style.gridSpacing ≤ 0 →
    Drawing.Ends style.gridSpacing d.width ∧ Drawing.Ends style.gridSpacing d.height

namespace Drawing

theorem gridPath_isSome_iff {step width height : Float} :
    (gridPath step width height).isSome = true ↔ Ends step width ∧ Ends step height := by
  rw [← gridLines_isSome_iff (downLine height), ← gridLines_isSome_iff (acrossLine width), gridPath]
  cases gridLines (downLine height) step width <;>
    cases gridLines (acrossLine width) step height <;> simp

/-- The layer is empty or one path. -/
theorem gridLayer_cases {style : Style} {d : Diagram} {grid : List Markup.Node}
    (h : gridLayer style d = some grid) : grid = [] ∨ ∃ path,
      gridPath style.gridSpacing d.width d.height = some path ∧ grid = [gridNode style path] := by
  unfold gridLayer Drawing.grid at h
  split at h
  · split at h
    · exact .inl (Option.some.inj h).symm
    · obtain ⟨path, hpath, rfl⟩ := Option.map_eq_some_iff.1 h
      exact .inr ⟨path, hpath, rfl⟩
  · exact .inl (Option.some.inj h).symm

theorem gridLayer_isSome_iff {style : Style} {d : Diagram} :
    (gridLayer style d).isSome = true ↔ d.GridEnds style := by
  unfold gridLayer grid Diagram.GridEnds
  by_cases hshown : d.showGrid = some true
  · by_cases hspacing : style.gridSpacing ≤ 0
    · simp [hshown, hspacing]
    · rw [if_pos hshown, if_neg hspacing, Option.isSome_map, gridPath_isSome_iff]
      exact ⟨fun h _ _ => h, fun h => h hshown hspacing⟩
  · simp [hshown]

end Drawing

namespace Diagram

variable {d : Diagram} {style : Style}

theorem gridEnds_of_hidden (h : d.showGrid = some false) : d.GridEnds style := by
  intro hshown
  rw [h] at hshown
  cases hshown

theorem gridEnds_of_ends (h : Drawing.Ends style.gridSpacing d.width ∧
    Drawing.Ends style.gridSpacing d.height) : d.GridEnds style := fun _ _ => h

end Diagram

/-- The usual distance leads to the edges of the usual canvases. -/
theorem Drawing.ends_usual : Ends 20 400 ∧ Ends 20 600 ∧ Ends 20 700 := by
  refine ⟨⟨34, ?_⟩, ⟨34, ?_⟩, ⟨34, ?_⟩⟩ <;> decide +kernel

end FreeBody
