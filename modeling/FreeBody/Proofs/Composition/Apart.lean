import FreeBody.Proofs.Composition.InTurn
import Mathlib.Order.Interval.Set.Disjoint
import Mathlib.Data.Set.Prod
import Mathlib.Order.CompletePartialOrder

/-!
# Diagrams of a composition are apart

Without rounding, no two diagrams of a composition lie on each other, whatever the layout, the
sizes of the diagrams and the entries left out are (`boxes_disjoint`).  Two diagrams of a series,
a stack or a comparison are apart because one has ended where the other begins; two of a grid
because they stand in different cells.
-/

namespace FreeBody.Composition

/-- The area of a diagram on the canvas. -/
def Place.box (p : Place ℚ) (size : Size ℚ) : Set (ℚ × ℚ) :=
  Set.Ico p.x (p.right size) ×ˢ Set.Ico p.y (p.bottom size)

section

variable {p q : Place ℚ} {size size' : Size ℚ}

theorem disjoint_box_of_right_le (h : p.right size ≤ q.x) :
    Disjoint (p.box size) (q.box size') := by
  refine Set.disjoint_prod.2 (.inl (Set.Ico_disjoint_Ico.2 ?_))
  exact ((min_le_left _ _).trans h).trans (le_max_right _ _)

theorem disjoint_box_of_bottom_le (h : p.bottom size ≤ q.y) :
    Disjoint (p.box size) (q.box size') := by
  refine Set.disjoint_prod.2 (.inr (Set.Ico_disjoint_Ico.2 ?_))
  exact ((min_le_left _ _).trans h).trans (le_max_right _ _)

end

variable {s : Spacing ℚ} {sized : List (Nat × Size ℚ)} {count : Nat}

theorem disjoint_gridPlaces (hs : s.IsRegular) (columns : Nat) (h : AreSizes count sized) :
    (sized.zip (places s (.grid columns) sized)).Pairwise fun p q =>
      Disjoint (p.2.box p.1.2) (q.2.box q.1.2) := by
  rw [places, ← List.map_prod_left_eq_zip, List.pairwise_map]
  refine h.rising.imp_of_mem ?_
  intro m n hm _ hlt
  obtain ⟨hright, hbottom⟩ := gridPlace_ends hs (gridColumns columns) (h.positive m hm)
  rcases div_lt_div_or_mod_lt_mod hlt with hrow | hcolumn
  · exact disjoint_box_of_bottom_le
      (hbottom.trans (cellOffset_add_le hs.gridCell.height.le hs.gap hrow))
  · exact disjoint_box_of_right_le
      (hright.trans (cellOffset_add_le hs.gridCell.width.le hs.gap hcolumn))

/-- The diagrams of every layout are apart. -/
theorem disjoint_places (hs : s.IsRegular) (layout : Layout) (h : AreSizes count sized) :
    (sized.zip (places s layout sized)).Pairwise fun p q =>
      Disjoint (p.2.box p.1.2) (q.2.box q.1.2) := by
  cases layout with
  | series =>
    exact (inTurn_rowPlaces hs 50 h.positive).pairwise.imp disjoint_box_of_right_le
  | parallel =>
    exact (inTurn_stackPlaces hs 50 h.positive).pairwise.imp disjoint_box_of_bottom_le
  | grid columns => exact disjoint_gridPlaces hs columns h
  | comparison title =>
    exact (inTurn_columnPlaces hs 50 0 h.positive).pairwise.imp disjoint_box_of_right_le

/-- Every layout scales its diagrams by a positive number. -/
theorem scale_pos (hs : s.IsRegular) (layout : Layout) (h : AreSizes count sized) :
    ∀ p ∈ sized.zip (places s layout sized), 0 < p.2.scale := by
  intro p hp
  have hsize := h.positive p.1 (List.of_mem_zip hp).1
  cases layout with
  | series => exact (of_mem_rowPlaces (List.of_mem_zip hp).2).2 ▸ one_pos
  | parallel => exact (of_mem_stackPlaces (List.of_mem_zip hp).2).2 ▸ one_pos
  | grid columns =>
    rw [places, ← List.map_prod_left_eq_zip] at hp
    obtain ⟨m, -, rfl⟩ := List.mem_map.1 hp
    exact (scale_gridPlace s _ m.1 m.2).symm ▸ gridScale_pos hs hsize
  | comparison title => exact (of_mem_columnPlaces hp).2 ▸ columnScale_pos hs hsize

/-- **Placed diagrams are apart.**  Every child of a composition has a place, the areas of any two
are disjoint, and all are scaled by positive numbers. -/
theorem boxes_disjoint (r : Registry) (hr : r.MakesSized) (s : Spacing ℚ) (hs : s.IsRegular)
    (id : String) (c : Combination) :
    (arrange Diagram.exactSize r s id c).map Prod.fst = children r id 0 c.entries ∧
    ((arrange Diagram.exactSize r s id c).Pairwise fun p q =>
      Disjoint (p.2.box p.1.diagram.exactSize) (q.2.box q.1.diagram.exactSize)) ∧
    ∀ p ∈ arrange Diagram.exactSize r s id c, 0 < p.2.scale := by
  have hsizes := areSizes_children hr id c.entries
  have hapart := disjoint_places hs c.layout hsizes
  have hscale := scale_pos hs c.layout hsizes
  rw [← map_arrange, List.pairwise_map] at hapart
  rw [← map_arrange, List.forall_mem_map] at hscale
  exact ⟨map_fst_arrange _ r s id c, hapart, hscale⟩

/-- Diagrams of three shapes in a grid, one of whose cells stays empty. -/
theorem boxes_disjoint_grid :
    let c : Combination := ⟨.grid 2, [{ preset := "pulley" }, { preset := "lost" },
      { preset := "hanging" }, { preset := "incline" }]⟩
    let placed := arrange Diagram.exactSize .builtin .usual "g" c
    Registry.builtin.MakesSized ∧ (Spacing.usual : Spacing ℚ).IsRegular ∧ placed.length = 3 ∧
      placed.map Prod.fst = children .builtin "g" 0 c.entries ∧
      (placed.Pairwise fun p q =>
        Disjoint (p.2.box p.1.diagram.exactSize) (q.2.box q.1.diagram.exactSize)) ∧
      ∀ p ∈ placed, 0 < p.2.scale := by
  intro c placed
  exact ⟨Registry.builtin_sized, isRegular_usual, rfl,
    boxes_disjoint .builtin Registry.builtin_sized .usual isRegular_usual "g" c⟩

end FreeBody.Composition
