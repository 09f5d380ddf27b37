import FreeBody.Proofs.Composition.Account
import FreeBody.Proofs.Decimal.Interval

/-!
# Compositions without rounding

The rules of placement hold for any kind of numbers, so a composition can be laid out by any
measure of its diagrams (`arrange`, `extent`).  Drawing does so with doubles
(`placedChildren_eq_arrange`, `size_of_compose`); reasoning does so with the rational numbers that
the doubles stand for, where nothing is rounded.
-/

namespace FreeBody

/-- The width and the height of a diagram, without rounding. -/
def Diagram.exactSize (d : Diagram) : Composition.Size ℚ :=
  ⟨(Binary.ofFloat d.width).value, (Binary.ofFloat d.height).value⟩

namespace Composition

/-! ## Any measure -/

section

variable {α : Type} [Quantity α] (measure : Diagram → Size α)

/-- The children of a composition with the places that they get by a measure of diagrams. -/
def arrange (r : Registry) (s : Spacing α) (id : String) (c : Combination) :
    List (Child × Place α) :=
  let made := children r id 0 c.entries
  made.zip (places s c.layout (made.map fun m => (m.index, measure m.diagram)))

/-- The canvas of a composition by a measure of diagrams. -/
def extent (r : Registry) (s : Spacing α) (id : String) (c : Combination) : Size α :=
  canvas s c.layout c.entries.length
    ((children r id 0 c.entries).map fun m => measure m.diagram)

theorem map_fst_arrange (r : Registry) (s : Spacing α) (id : String) (c : Combination) :
    (arrange measure r s id c).map Prod.fst = children r id 0 c.entries := by
  apply List.map_fst_zip
  rw [length_places, List.length_map]

/-- The places of a composition are found from the sizes of its children. -/
theorem map_arrange (r : Registry) (s : Spacing α) (id : String) (c : Combination) :
    let sized := (children r id 0 c.entries).map fun m => (m.index, measure m.diagram)
    (arrange measure r s id c).map (fun p => ((p.1.index, measure p.1.diagram), p.2)) =
      sized.zip (places s c.layout sized) := by
  intro sized
  rw [arrange, List.zip_map_left]
  rfl

end

/-- The children are drawn where they go by their sizes in doubles. -/
theorem placedChildren_eq_arrange (r : Registry) (s : Spacing Float) (id : String)
    (c : Combination) :
    placedChildren r s id c = arrange (fun d => ⟨d.width, d.height⟩) r s id c := rfl

/-- The composed diagram is as large as the canvas in doubles. -/
theorem size_of_compose {r : Registry} {s : Spacing Float} {id : String} {c : Combination}
    {d : Diagram} (h : (compose r s id c).diagram = some d) :
    (⟨d.width, d.height⟩ : Size Float) = extent (fun d => ⟨d.width, d.height⟩) r s id c := by
  obtain ⟨shown, -, rfl⟩ := Option.map_eq_some_iff.1 h
  rfl

/-! ## Sizes -/

/-- A size that is not empty. -/
structure Size.IsPositive (size : Size ℚ) : Prop where
  width : 0 < size.width
  height : 0 < size.height

/-- Distances that do not draw diagrams together, and cells that are not empty. -/
structure Spacing.IsRegular (s : Spacing ℚ) : Prop where
  gap : 0 ≤ s.gap
  gridCell : s.gridCell.IsPositive
  compareWidth : 0 < s.compareWidth
  compareGap : 0 ≤ s.compareGap

/-- What holds of the sizes of the children of a composition of `count` entries, each with the
number of its entry. -/
structure AreSizes (count : Nat) (sized : List (Nat × Size ℚ)) : Prop where
  positive : ∀ m ∈ sized, m.2.IsPositive
  rising : sized.Pairwise fun m n => m.1 < n.1
  lt_count : ∀ m ∈ sized, m.1 < count

end Composition

/-- Whether no generator makes an empty diagram, or one whose size is no number. -/
def Registry.MakesSized (r : Registry) : Prop := r.Makes fun _ d => d.exactSize.IsPositive

theorem Diagram.isPositive_exactSize {d : Diagram} {width height : Float}
    (hsize : d.width = width ∧ d.height = height)
    (hpositive : (Binary.ofFloat width).isPositive = true ∧
      (Binary.ofFloat height).isPositive = true) : d.exactSize.IsPositive := by
  obtain ⟨rfl, rfl⟩ := hsize
  exact ⟨Binary.value_pos_iff.2 hpositive.1, Binary.value_pos_iff.2 hpositive.2⟩

namespace Preset

variable {id : String} {args : List Argument} {d : Diagram}

theorem incline_size (h : incline id args = .ok d) : d.width = 600 ∧ d.height = 400 := by
  obtain ⟨angle, -, h⟩ := exists_of_bind_eq_ok h
  obtain ⟨-, -, h⟩ := exists_of_bind_eq_ok h
  obtain ⟨friction, -, h⟩ := exists_of_bind_eq_ok h
  obtain rfl := Except.ok.inj h
  cases friction <;> exact ⟨rfl, rfl⟩

theorem hanging_size (h : hanging id args = .ok d) : d.width = 400 ∧ d.height = 500 := by
  obtain ⟨-, -, h⟩ := exists_of_bind_eq_ok h
  obtain ⟨-, -, h⟩ := exists_of_bind_eq_ok h
  obtain rfl := Except.ok.inj h
  exact ⟨rfl, rfl⟩

theorem pulley_size (h : pulley id args = .ok d) : d.width = 700 ∧ d.height = 400 := by
  obtain ⟨-, -, h⟩ := exists_of_bind_eq_ok h
  obtain ⟨-, -, h⟩ := exists_of_bind_eq_ok h
  obtain rfl := Except.ok.inj h
  exact ⟨rfl, rfl⟩

theorem beam_size (h : beam id args = .ok d) : d.width = 700 ∧ d.height = 400 := by
  obtain ⟨length, -, h⟩ := exists_of_bind_eq_ok h
  obtain ⟨-, -, h⟩ := exists_of_bind_eq_ok h
  split at h
  · cases h
  · obtain rfl := Except.ok.inj h
    exact ⟨rfl, rfl⟩

end Preset

/-- The built-in presets make diagrams of fixed sizes. -/
theorem Registry.builtin_sized : Registry.builtin.MakesSized := by
  refine makes_iff.2 (forall_builtin ?_ ?_ ?_ ?_)
  · exact Generator.makes_ofResult fun _ _ _ h =>
      Diagram.isPositive_exactSize (Preset.incline_size h) (by decide)
  · exact Generator.makes_ofResult fun _ _ _ h =>
      Diagram.isPositive_exactSize (Preset.hanging_size h) (by decide)
  · exact Generator.makes_ofResult fun _ _ _ h =>
      Diagram.isPositive_exactSize (Preset.pulley_size h) (by decide)
  · exact Generator.makes_ofResult fun _ _ _ h =>
      Diagram.isPositive_exactSize (Preset.beam_size h) (by decide)

namespace Composition

theorem isRegular_usual : (Spacing.usual : Spacing ℚ).IsRegular where
  gap := show (0 : ℚ) ≤ 50 by norm_num
  gridCell := ⟨show (0 : ℚ) < 400 by norm_num, show (0 : ℚ) < 400 by norm_num⟩
  compareWidth := show (0 : ℚ) < 350 by norm_num
  compareGap := show (0 : ℚ) ≤ 100 by norm_num

theorem areSizes_children {r : Registry} (hr : r.MakesSized) (id : String)
    (entries : List Entry) :
    AreSizes entries.length
      ((children r id 0 entries).map fun m => (m.index, m.diagram.exactSize)) where
  positive := by
    intro m hm
    obtain ⟨child, hchild, rfl⟩ := List.mem_map.1 hm
    exact hr _ _ _ _ (runEntry_eq_ok_iff.1 (mem_children_iff.1 hchild).2)
  rising := List.pairwise_map.2 (children_rising r id 0 entries)
  lt_count := by
    intro m hm
    obtain ⟨child, hchild, rfl⟩ := List.mem_map.1 hm
    exact (List.getElem?_eq_some_iff.1 (mem_children_iff.1 hchild).1).1

/-! ## Rational quantities -/

theorem least_eq_min (a b : ℚ) : Quantity.least a b = min a b := by
  rcases lt_or_ge b a with h | h
  · exact (if_pos h).trans (min_eq_right h.le).symm
  · exact (if_neg (not_lt.2 h)).trans (min_eq_left h).symm

theorem greatest_eq_max (a b : ℚ) : Quantity.greatest a b = max a b := by
  rcases lt_or_ge a b with h | h
  · exact (if_pos h).trans (max_eq_right h.le).symm
  · exact (if_neg (not_lt.2 h)).trans (max_eq_left h).symm

/-- A running maximum reaches its start and everything it runs over. -/
theorem le_foldl_greatest (a : ℚ) (xs : List ℚ) :
    a ≤ xs.foldl Quantity.greatest a ∧ ∀ x ∈ xs, x ≤ xs.foldl Quantity.greatest a := by
  induction xs generalizing a with
  | nil => exact ⟨le_rfl, List.forall_mem_nil _⟩
  | cons y ys ih =>
    obtain ⟨hstart, hmem⟩ := ih (Quantity.greatest a y)
    have hmax : max a y ≤ (y :: ys).foldl Quantity.greatest a := by
      rwa [← greatest_eq_max]
    refine ⟨(le_max_left a y).trans hmax, List.forall_mem_cons.2 ⟨?_, hmem⟩⟩
    exact (le_max_right a y).trans hmax

end Composition

end FreeBody
