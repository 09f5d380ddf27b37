import FreeBody.Proofs.Composition.Exact
import Mathlib.Tactic.Linarith

/-!
# Diagrams one behind the other

Series, stacks and columns put one diagram behind the other along one axis (`InTurn`): every
diagram has ended where a later one begins, and the last one has ended where the next would go.
Along the other axis a layout treats all of its diagrams alike.  In a grid every diagram ends
within the cell of its own number (`gridPlace_ends`).
-/

namespace FreeBody.Composition

/-! ## One behind the other -/

/-- Items one behind the other between two bounds. -/
inductive InTurn {β : Type} (start stop : β → ℚ) : ℚ → List β → ℚ → Prop
  | nil {a b : ℚ} : a ≤ b → InTurn start stop a [] b
  /-- The others come behind some place `next` where this one has ended. -/
  | cons {a next b : ℚ} {p : β} {rest : List β} : a ≤ start p → start p ≤ stop p →
      stop p ≤ next → InTurn start stop next rest b → InTurn start stop a (p :: rest) b

namespace InTurn

variable {β : Type} {start stop : β → ℚ} {a b : ℚ} {items : List β}

/-- An item put in front, where the others began, puts them off by its length at least. -/
theorem cons_length {p : β} {length next : ℚ} (hstart : start p = a) (hstop : stop p = a + length)
    (hlength : 0 ≤ length) (hnext : a + length ≤ next) (h : InTurn start stop next items b) :
    InTurn start stop a (p :: items) b := by
  refine .cons hstart.ge ?_ (hstop.trans_le hnext) h
  rw [hstart, hstop]
  exact le_add_of_nonneg_right hlength

theorem le (h : InTurn start stop a items b) : a ≤ b := by
  induction h with
  | nil hab => exact hab
  | cons hstart hstop hnext _ ih => exact ((hstart.trans hstop).trans hnext).trans ih

/-- All items lie between the bounds. -/
theorem bounds (h : InTurn start stop a items b) : ∀ p ∈ items, a ≤ start p ∧ stop p ≤ b := by
  induction h with
  | nil => exact List.forall_mem_nil _
  | cons hstart hstop hnext hrest ih =>
    refine List.forall_mem_cons.2 ⟨⟨hstart, hnext.trans hrest.le⟩, fun q hq => ?_⟩
    obtain ⟨hleft, hright⟩ := ih q hq
    exact ⟨((hstart.trans hstop).trans hnext).trans hleft, hright⟩

/-- Every item has ended where any later one begins. -/
theorem pairwise (h : InTurn start stop a items b) :
    items.Pairwise fun p q => stop p ≤ start q := by
  induction h with
  | nil => exact .nil
  | cons hstart hstop hnext hrest ih =>
    exact .cons (fun q hq => hnext.trans (hrest.bounds q hq).1) ih

end InTurn

/-! ## Scales -/

theorem min_div_mul_le {a w : ℚ} (hw : 0 < w) (k : ℚ) : min (a / w) k * w ≤ a := by
  have hle : min (a / w) k * w ≤ a / w * w := mul_le_mul_of_nonneg_right (min_le_left _ _) hw.le
  rwa [div_mul_cancel₀ a hw.ne'] at hle

/-- How much a diagram in a column is scaled. -/
def columnScale (s : Spacing ℚ) (size : Size ℚ) : ℚ :=
  min (s.compareWidth / size.width) (8 / 10)

/-- How much a diagram in a cell of a grid is scaled. -/
def gridScale (s : Spacing ℚ) (size : Size ℚ) : ℚ :=
  min (s.gridCell.width / size.width) (s.gridCell.height / size.height) * (9 / 10)

section

variable {s : Spacing ℚ} {size : Size ℚ}

theorem columnScale_pos (hs : s.IsRegular) (h : size.IsPositive) : 0 < columnScale s size :=
  lt_min (div_pos hs.compareWidth h.width) (by norm_num)

/-- A diagram is no wider than its column. -/
theorem columnScale_mul_le (h : size.IsPositive) :
    columnScale s size * size.width ≤ s.compareWidth :=
  min_div_mul_le h.width _

theorem gridScale_pos (hs : s.IsRegular) (h : size.IsPositive) : 0 < gridScale s size := by
  have hmin : 0 < min (s.gridCell.width / size.width) (s.gridCell.height / size.height) :=
    lt_min (div_pos hs.gridCell.width h.width) (div_pos hs.gridCell.height h.height)
  exact mul_pos hmin (by norm_num)

/-- A diagram fits in its cell, whatever the shapes of the two are. -/
theorem gridScale_mul_le (hs : s.IsRegular) (h : size.IsPositive) :
    gridScale s size * size.width ≤ s.gridCell.width ∧
      gridScale s size * size.height ≤ s.gridCell.height := by
  have hwidth := min_div_mul_le (a := s.gridCell.width) h.width
    (s.gridCell.height / size.height)
  have hheight := min_div_mul_le (a := s.gridCell.height) h.height
    (s.gridCell.width / size.width)
  rw [min_comm] at hheight
  rw [gridScale, mul_right_comm, mul_right_comm]
  exact ⟨by linarith [hs.gridCell.width], by linarith [hs.gridCell.height]⟩

end

/-! ## Places -/

/-- Where a diagram ends on the right. -/
def Place.right (p : Place ℚ) (size : Size ℚ) : ℚ := p.x + p.scale * size.width

/-- Where a diagram ends at the bottom. -/
def Place.bottom (p : Place ℚ) (size : Size ℚ) : ℚ := p.y + p.scale * size.height

section

variable {s : Spacing ℚ} {sized : List (Nat × Size ℚ)}

/-- The diagrams of a row stand in turn. -/
theorem inTurn_rowPlaces (hs : s.IsRegular) (x : ℚ) (hsized : ∀ m ∈ sized, m.2.IsPositive) :
    InTurn (fun p => p.2.x) (fun p => p.2.right p.1.2) x (sized.zip (rowPlaces s.gap x sized))
      (rowEnd s.gap x (sized.map Prod.snd)) := by
  induction sized generalizing x with
  | nil => exact .nil le_rfl
  | cons m rest ih =>
    obtain ⟨hm, hrest⟩ := List.forall_mem_cons.1 hsized
    have hright : Place.right ⟨x, 0, 1, m.1, 0⟩ m.2 = x + m.2.width := by
      rw [Place.right, one_mul]
    exact .cons_length rfl hright hm.width.le (by linarith [hs.gap])
      (ih (x + (m.2.width + s.gap)) hrest)

/-- The diagrams of a stack stand in turn. -/
theorem inTurn_stackPlaces (hs : s.IsRegular) (y : ℚ) (hsized : ∀ m ∈ sized, m.2.IsPositive) :
    InTurn (fun p => p.2.y) (fun p => p.2.bottom p.1.2) y
      (sized.zip (stackPlaces s.gap y sized)) (stackEnd s.gap y (sized.map Prod.snd)) := by
  induction sized generalizing y with
  | nil => exact .nil le_rfl
  | cons m rest ih =>
    obtain ⟨hm, hrest⟩ := List.forall_mem_cons.1 hsized
    have hbottom : Place.bottom ⟨0, y, 1, 0, m.1⟩ m.2 = y + m.2.height := by
      rw [Place.bottom, one_mul]
    exact .cons_length rfl hbottom hm.height.le (by linarith [hs.gap])
      (ih (y + (m.2.height + s.gap)) hrest)

/-- The diagrams of columns stand in turn. -/
theorem inTurn_columnPlaces (hs : s.IsRegular) (x : ℚ) (column : Nat)
    (hsized : ∀ m ∈ sized, m.2.IsPositive) :
    InTurn (fun p => p.2.x) (fun p => p.2.right p.1.2) x
      (sized.zip (columnPlaces s x column sized)) (columnEnd s x sized.length) := by
  induction sized generalizing x column with
  | nil => exact .nil le_rfl
  | cons m rest ih =>
    obtain ⟨hm, hrest⟩ := List.forall_mem_cons.1 hsized
    have hright : Place.right
        ⟨x, 90, Quantity.least (s.compareWidth / m.2.width) (8 / 10), column, 0⟩ m.2 =
          x + columnScale s m.2 * m.2.width := by
      rw [least_eq_min]
      rfl
    have hscaled := mul_pos (columnScale_pos hs hm) hm.width
    have hfits := columnScale_mul_le (s := s) hm
    exact .cons_length rfl hright hscaled.le (by linarith [hs.compareGap])
      (ih (x + (s.compareWidth + s.compareGap)) (column + 1) hrest)

/-- A row stands at the upper edge. -/
theorem of_mem_rowPlaces {gap x : ℚ} {p : Place ℚ} (h : p ∈ rowPlaces gap x sized) :
    p.y = 0 ∧ p.scale = 1 := by
  induction sized generalizing x with
  | nil => cases h
  | cons m rest ih =>
    rcases List.mem_cons.1 h with rfl | h
    · exact ⟨rfl, rfl⟩
    · exact ih h

/-- A stack stands at the left edge. -/
theorem of_mem_stackPlaces {gap y : ℚ} {p : Place ℚ} (h : p ∈ stackPlaces gap y sized) :
    p.x = 0 ∧ p.scale = 1 := by
  induction sized generalizing y with
  | nil => cases h
  | cons m rest ih =>
    rcases List.mem_cons.1 h with rfl | h
    · exact ⟨rfl, rfl⟩
    · exact ih h

/-- The diagrams in columns begin at one height. -/
theorem of_mem_columnPlaces {x : ℚ} {column : Nat} {p : (Nat × Size ℚ) × Place ℚ}
    (h : p ∈ sized.zip (columnPlaces s x column sized)) :
    p.2.y = 90 ∧ p.2.scale = columnScale s p.1.2 := by
  induction sized generalizing x column with
  | nil => cases h
  | cons m rest ih =>
    rcases List.mem_cons.1 h with rfl | h
    · exact ⟨rfl, least_eq_min _ _⟩
    · exact ih h

/-- A diagram in a grid is scaled by what fits in its cell. -/
theorem scale_gridPlace (s : Spacing ℚ) (columns index : Nat) (size : Size ℚ) :
    (gridPlace s columns index size).scale = gridScale s size := by
  rw [gridScale, ← least_eq_min]
  rfl

/-- A diagram ends within its cell. -/
theorem gridPlace_ends (hs : s.IsRegular) (columns : Nat) {m : Nat × Size ℚ}
    (hm : m.2.IsPositive) :
    (gridPlace s columns m.1 m.2).right m.2 ≤
        cellOffset s.gridCell.width s.gap (m.1 % columns) + s.gridCell.width ∧
      (gridPlace s columns m.1 m.2).bottom m.2 ≤
        cellOffset s.gridCell.height s.gap (m.1 / columns) + s.gridCell.height := by
  obtain ⟨hwidth, hheight⟩ := gridScale_mul_le hs hm
  rw [Place.right, Place.bottom, scale_gridPlace]
  exact ⟨add_le_add_right hwidth _, add_le_add_right hheight _⟩

end

/-! ## Cells -/

/-- A cell ends in front of any later one. -/
theorem cellOffset_add_le {cell gap : ℚ} (hcell : 0 ≤ cell) (hgap : 0 ≤ gap) {m n : Nat}
    (h : m < n) : cellOffset cell gap m + cell ≤ cellOffset cell gap n := by
  have hstep : ((m : ℚ) + 1) * (cell + gap) ≤ n * (cell + gap) :=
    mul_le_mul_of_nonneg_right (by exact_mod_cast h) (add_nonneg hcell hgap)
  show (m * (cell + gap) + 50) + cell ≤ n * (cell + gap) + 50
  linarith

/-- The later of two numbers has its cell in a later row, or in the same row further right. -/
theorem div_lt_div_or_mod_lt_mod {i j columns : Nat} (h : i < j) :
    i / columns < j / columns ∨ i % columns < j % columns := by
  rcases Nat.lt_or_ge (i / columns) (j / columns) with hrow | hrow
  · exact .inl hrow
  · have hsame : i / columns = j / columns :=
      Nat.le_antisymm (Nat.div_le_div_right h.le) hrow
    have hi := Nat.div_add_mod i columns
    have hj := Nat.div_add_mod j columns
    rw [hsame] at hi
    exact .inr (by omega)

end FreeBody.Composition
