import FreeBody.Composition.Layout

/-!
# Placement

Where the diagrams of a composition go, and how large its canvas is.  Only sizes matter here, so
the rules are stated over any numbers that can be added, multiplied, divided and compared
(`Quantity`): doubles for drawing, rationals for reasoning.

Diagrams are placed one after the other; an entry without a diagram takes no room, except that a
grid keeps its cell.
-/

namespace FreeBody.Composition

/-- Numbers that sizes and positions are made of. -/
class Quantity (α : Type) extends Add α, Mul α, Div α where
  ofNat : Nat → α
  least : α → α → α
  greatest : α → α → α

/-- Doubles; a comparison leaves out what is not a number. -/
instance : Quantity Float where
  ofNat := Float.ofNat
  least a b := if a.isNaN then b else if b.isNaN then a else if b < a then b else a
  greatest a b := if a.isNaN then b else if b.isNaN then a else if a < b then b else a

/-- Rationals. -/
instance : Quantity Rat where
  ofNat n := (n : Rat)
  least a b := if b < a then b else a
  greatest a b := if a < b then b else a

open Quantity (least greatest)

variable {α : Type} [Quantity α]

/-- A natural number as a quantity. -/
def num (n : Nat) : α := Quantity.ofNat n

/-- A width and a height. -/
structure Size (α : Type) where
  width : α
  height : α

/-- Distances and cell sizes. -/
structure Spacing (α : Type) where
  /-- Between neighbours in a series, a stack or a grid. -/
  gap : α
  gridCell : Size α
  compareWidth : α
  compareGap : α

/-- The spacing used unless another is asked for. -/
def Spacing.usual : Spacing α := ⟨num 50, ⟨num 400, num 400⟩, num 350, num 100⟩

/-- Where a diagram goes, how much it is shrunk or stretched, and the cell it takes. -/
structure Place (α : Type) where
  x : α
  y : α
  scale : α
  column : Nat
  row : Nat

/-! ## Rows and stacks -/

/-- Diagrams from left to right, the first at `x`.  Each comes with the index of its entry. -/
def rowPlaces (gap x : α) : List (Nat × Size α) → List (Place α)
  | [] => []
  | (index, size) :: rest =>
    ⟨x, num 0, num 1, index, 0⟩ :: rowPlaces gap (x + (size.width + gap)) rest

/-- Where the diagram after those would go. -/
def rowEnd (gap x : α) : List (Size α) → α
  | [] => x
  | size :: rest => rowEnd gap (x + (size.width + gap)) rest

/-- Diagrams from top to bottom, the first at `y`. -/
def stackPlaces (gap y : α) : List (Nat × Size α) → List (Place α)
  | [] => []
  | (index, size) :: rest =>
    ⟨num 0, y, num 1, 0, index⟩ :: stackPlaces gap (y + (size.height + gap)) rest

/-- Where the diagram below those would go. -/
def stackEnd (gap y : α) : List (Size α) → α
  | [] => y
  | size :: rest => stackEnd gap (y + (size.height + gap)) rest

/-! ## Grids and columns -/

/-- The offset of the cell `n` from the edge. -/
def cellOffset (cell gap : α) (n : Nat) : α := num n * (cell + gap) + num 50

/-- The cells of a grid are numbered by rows; a diagram fills nine tenths of its cell. -/
def gridPlace (s : Spacing α) (columns : Nat) (index : Nat) (size : Size α) : Place α :=
  let column := index % columns
  let row := index / columns
  { x := cellOffset s.gridCell.width s.gap column
    y := cellOffset s.gridCell.height s.gap row
    scale :=
      least (s.gridCell.width / size.width) (s.gridCell.height / size.height) * (num 9 / num 10)
    column
    row }

/-- Diagrams in columns from `x`, scaled to the width of a column, but never above four fifths. -/
def columnPlaces (s : Spacing α) (x : α) (column : Nat) : List (Nat × Size α) → List (Place α)
  | [] => []
  | (_, size) :: rest =>
    ⟨x, num 90, least (s.compareWidth / size.width) (num 8 / num 10), column, 0⟩ ::
      columnPlaces s (x + (s.compareWidth + s.compareGap)) (column + 1) rest

/-- Where the column after `count` columns would go. -/
def columnEnd (s : Spacing α) (x : α) : Nat → α
  | 0 => x
  | count + 1 => columnEnd s (x + (s.compareWidth + s.compareGap)) count

/-! ## Layouts -/

/-- The number of columns of a grid is at least one. -/
def gridColumns (columns : Nat) : Nat := max columns 1

/-- The places of the diagrams of a composition. -/
def places (s : Spacing α) (layout : Layout) (children : List (Nat × Size α)) :
    List (Place α) :=
  match layout with
  | .series => rowPlaces s.gap (num 50) children
  | .parallel => stackPlaces s.gap (num 50) children
  | .grid columns => children.map fun c => gridPlace s (gridColumns columns) c.1 c.2
  | .comparison _ => columnPlaces s (num 50) 0 children

/-- The canvas of a composition of `count` entries, of which those with a diagram have the given
sizes. -/
def canvas (s : Spacing α) (layout : Layout) (count : Nat) (sizes : List (Size α)) : Size α :=
  match layout with
  | .series =>
    ⟨rowEnd s.gap (num 50) sizes + num 50,
      (sizes.map (·.height)).foldl greatest (num 400)⟩
  | .parallel =>
    ⟨(sizes.map (·.width)).foldl greatest (num 600) + num 100,
      stackEnd s.gap (num 50) sizes⟩
  | .grid columns =>
    let columns := gridColumns columns
    let rows := (count + columns - 1) / columns
    ⟨num columns * (s.gridCell.width + s.gap) + num 100,
      num rows * (s.gridCell.height + s.gap) + num 100⟩
  | .comparison _ => ⟨columnEnd s (num 50) sizes.length, num 500⟩

end FreeBody.Composition
