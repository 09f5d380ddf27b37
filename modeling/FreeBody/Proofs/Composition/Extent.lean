import FreeBody.Proofs.Composition.InTurn

/-!
# Which diagrams a canvas holds

Without rounding, the canvas of a series, a stack or a grid holds all of its diagrams, and that of
a comparison is always wide enough.  But its height is fixed: columns are scaled by their width
alone, and a diagram that is still higher than 410 then sticks out at the bottom.  So a canvas
holds its diagrams exactly if the composition is no comparison, or one without such a diagram
(`within_extent_iff`, `comparison_cuts_tall`).
-/

namespace FreeBody.Composition

/-- Whether a diagram at a place lies on a canvas. -/
structure Place.Within (p : Place ℚ) (size canvas : Size ℚ) : Prop where
  left : 0 ≤ p.x
  top : 0 ≤ p.y
  right : p.right size ≤ canvas.width
  bottom : p.bottom size ≤ canvas.height

variable {s : Spacing ℚ} {sized : List (Nat × Size ℚ)} {count : Nat}
  {p : (Nat × Size ℚ) × Place ℚ}

/-! ## Layouts that grow -/

theorem within_row (hs : s.IsRegular) (h : AreSizes count sized)
    (hp : p ∈ sized.zip (places s .series sized)) :
    p.2.Within p.1.2 (canvas s .series count (sized.map Prod.snd)) := by
  obtain ⟨hleft, hright⟩ := (inTurn_rowPlaces hs 50 h.positive).bounds p hp
  obtain ⟨hsize, hplace⟩ := List.of_mem_zip hp
  obtain ⟨htop, hscale⟩ := of_mem_rowPlaces hplace
  have hheight : p.1.2.height ∈ (sized.map Prod.snd).map (·.height) :=
    List.mem_map_of_mem (List.mem_map_of_mem hsize)
  constructor
  · linarith
  · exact htop.ge
  · exact hright.trans (le_add_of_nonneg_right (show (0 : ℚ) ≤ 50 by norm_num))
  · rw [Place.bottom, htop, hscale, zero_add, one_mul]
    exact (le_foldl_greatest 400 _).2 _ hheight

theorem within_stack (hs : s.IsRegular) (h : AreSizes count sized)
    (hp : p ∈ sized.zip (places s .parallel sized)) :
    p.2.Within p.1.2 (canvas s .parallel count (sized.map Prod.snd)) := by
  obtain ⟨htop, hbottom⟩ := (inTurn_stackPlaces hs 50 h.positive).bounds p hp
  obtain ⟨hsize, hplace⟩ := List.of_mem_zip hp
  obtain ⟨hleft, hscale⟩ := of_mem_stackPlaces hplace
  have hwidth : p.1.2.width ∈ (sized.map Prod.snd).map (·.width) :=
    List.mem_map_of_mem (List.mem_map_of_mem hsize)
  constructor
  · exact hleft.ge
  · linarith
  · rw [Place.right, hleft, hscale, zero_add, one_mul]
    refine ((le_foldl_greatest 600 _).2 _ hwidth).trans ?_
    exact le_add_of_nonneg_right (show (0 : ℚ) ≤ 100 by norm_num)
  · exact hbottom

/-- The last of `n` cells ends on a canvas that is made for `n` cells. -/
theorem cellOffset_add_le_extent {cell gap : ℚ} (hcell : 0 ≤ cell) (hgap : 0 ≤ gap) {m n : Nat}
    (h : m < n) : cellOffset cell gap m + cell ≤ n * (cell + gap) + 100 := by
  refine (cellOffset_add_le hcell hgap h).trans ?_
  show (n : ℚ) * (cell + gap) + 50 ≤ n * (cell + gap) + 100
  linarith

theorem cellOffset_nonneg {cell gap : ℚ} (hcell : 0 ≤ cell) (hgap : 0 ≤ gap) (n : Nat) :
    0 ≤ cellOffset cell gap n := by
  show (0 : ℚ) ≤ n * (cell + gap) + 50
  positivity

/-- The rows of a grid hold all of its entries. -/
theorem div_lt_rows {index count columns : Nat} (hcolumns : 0 < columns) (h : index < count) :
    index / columns < (count + columns - 1) / columns := by
  have hle : (index + columns) / columns ≤ (count + columns - 1) / columns :=
    Nat.div_le_div_right (by omega)
  rwa [Nat.add_div_right index hcolumns] at hle

theorem within_grid (hs : s.IsRegular) (columns : Nat) (h : AreSizes count sized)
    (hp : p ∈ sized.zip (places s (.grid columns) sized)) :
    p.2.Within p.1.2 (canvas s (.grid columns) count (sized.map Prod.snd)) := by
  rw [places, ← List.map_prod_left_eq_zip] at hp
  obtain ⟨m, hm, rfl⟩ := List.mem_map.1 hp
  obtain ⟨hright, hbottom⟩ := gridPlace_ends hs (gridColumns columns) (h.positive m hm)
  have hcolumns : 0 < gridColumns columns := Nat.le_max_right columns 1
  have hgap := hs.gap
  obtain ⟨hwidth, hheight⟩ := hs.gridCell
  constructor
  · exact cellOffset_nonneg hwidth.le hgap _
  · exact cellOffset_nonneg hheight.le hgap _
  · exact hright.trans (cellOffset_add_le_extent hwidth.le hgap (Nat.mod_lt _ hcolumns))
  · exact hbottom.trans
      (cellOffset_add_le_extent hheight.le hgap (div_lt_rows hcolumns (h.lt_count m hm)))

/-! ## Comparisons -/

/-- A comparison is wide enough, and high enough for a diagram that is scaled to 410 or less. -/
theorem within_columns_iff (hs : s.IsRegular) (title : Option String) (h : AreSizes count sized)
    (hp : p ∈ sized.zip (places s (.comparison title) sized)) :
    (0 ≤ p.2.x ∧ 0 ≤ p.2.y ∧
      p.2.right p.1.2 ≤ (canvas s (.comparison title) count (sized.map Prod.snd)).width) ∧
    (p.2.bottom p.1.2 ≤ (canvas s (.comparison title) count (sized.map Prod.snd)).height ↔
      columnScale s p.1.2 * p.1.2.height ≤ 410) := by
  obtain ⟨hleft, hright⟩ := (inTurn_columnPlaces hs 50 0 h.positive).bounds p hp
  obtain ⟨htop, hscale⟩ := of_mem_columnPlaces hp
  refine ⟨⟨by linarith, htop ▸ by norm_num, ?_⟩, ?_⟩
  · rw [canvas, List.length_map]
    exact hright
  · rw [Place.bottom, htop, hscale]
    show (90 : ℚ) + columnScale s p.1.2 * p.1.2.height ≤ 500 ↔ _
    constructor <;> intro hle <;> linarith

/-! ## All layouts -/

/-- Whether a diagram of a layout is no higher than a canvas of fixed height allows. -/
def FitsColumns (s : Spacing ℚ) (layout : Layout) (size : Size ℚ) : Prop :=
  ∀ title, layout = .comparison title → columnScale s size * size.height ≤ 410

/-- A diagram sticks out of the canvas at most at the bottom, and there only in a comparison. -/
theorem within_canvas_iff (hs : s.IsRegular) (layout : Layout) (h : AreSizes count sized)
    (hp : p ∈ sized.zip (places s layout sized)) :
    (0 ≤ p.2.x ∧ 0 ≤ p.2.y ∧
      p.2.right p.1.2 ≤ (canvas s layout count (sized.map Prod.snd)).width) ∧
    (p.2.bottom p.1.2 ≤ (canvas s layout count (sized.map Prod.snd)).height ↔
      FitsColumns s layout p.1.2) := by
  have hgrows (hlayout : ∀ title, layout ≠ .comparison title)
      (hwithin : p.2.Within p.1.2 (canvas s layout count (sized.map Prod.snd))) :
      (0 ≤ p.2.x ∧ 0 ≤ p.2.y ∧
        p.2.right p.1.2 ≤ (canvas s layout count (sized.map Prod.snd)).width) ∧
      (p.2.bottom p.1.2 ≤ (canvas s layout count (sized.map Prod.snd)).height ↔
        FitsColumns s layout p.1.2) :=
    ⟨⟨hwithin.left, hwithin.top, hwithin.right⟩,
      iff_of_true hwithin.bottom fun title htitle => absurd htitle (hlayout title)⟩
  cases layout with
  | series => exact hgrows nofun (within_row hs h hp)
  | parallel => exact hgrows nofun (within_stack hs h hp)
  | grid columns => exact hgrows nofun (within_grid hs columns h hp)
  | comparison title =>
    obtain ⟨hbeside, hbottom⟩ := within_columns_iff hs title h hp
    refine ⟨hbeside, hbottom.trans ⟨fun hle _ _ => hle, fun hfits => hfits title rfl⟩⟩

/-- **A canvas holds its diagrams, unless a comparison is too low.**  A diagram can only stick out
at the bottom, and all lie on the canvas exactly if the layout is no comparison or every diagram
in it is scaled to a height of 410 or less. -/
theorem within_extent_iff (r : Registry) (hr : r.MakesSized) (s : Spacing ℚ) (hs : s.IsRegular)
    (id : String) (c : Combination) :
    let placed := arrange Diagram.exactSize r s id c
    let size := extent Diagram.exactSize r s id c
    (∀ p ∈ placed, 0 ≤ p.2.x ∧ 0 ≤ p.2.y ∧ p.2.right p.1.diagram.exactSize ≤ size.width) ∧
    ((∀ p ∈ placed, p.2.Within p.1.diagram.exactSize size) ↔
      ∀ m ∈ children r id 0 c.entries, FitsColumns s c.layout m.diagram.exactSize) := by
  intro placed size
  have hsizes := areSizes_children hr id c.entries
  have hcanvas : canvas s c.layout c.entries.length
      (((children r id 0 c.entries).map fun m => (m.index, m.diagram.exactSize)).map Prod.snd) =
        size := by
    rw [List.map_map]
    rfl
  have hplaces : ∀ p ∈ placed,
      (0 ≤ p.2.x ∧ 0 ≤ p.2.y ∧ p.2.right p.1.diagram.exactSize ≤ size.width) ∧
      (p.2.bottom p.1.diagram.exactSize ≤ size.height ↔
        FitsColumns s c.layout p.1.diagram.exactSize) := by
    intro p hp
    have hmem := List.mem_map_of_mem (f := fun p => ((p.1.index, p.1.diagram.exactSize), p.2)) hp
    rw [map_arrange] at hmem
    have hwithin := within_canvas_iff hs c.layout hsizes hmem
    rwa [hcanvas] at hwithin
  refine ⟨fun p hp => (hplaces p hp).1, ?_⟩
  rw [← map_fst_arrange Diagram.exactSize r s id c, List.forall_mem_map]
  constructor
  · intro hwithin p hp
    exact (hplaces p hp).2.1 (hwithin p hp).bottom
  · intro hfits p hp
    obtain ⟨⟨hleft, htop, hright⟩, hbottom⟩ := hplaces p hp
    exact ⟨hleft, htop, hright, hbottom.2 (hfits p hp)⟩

/-- The highest of the built-in presets just fits in a comparison, beside an entry without a
diagram. -/
theorem within_extent_hanging :
    let c : Combination := ⟨.comparison (some "Masses"),
      [{ preset := "hanging" }, { preset := "lost" }, { preset := "pulley" }]⟩
    let placed := arrange Diagram.exactSize .builtin .usual "c" c
    let size := extent Diagram.exactSize .builtin .usual "c" c
    Registry.builtin.MakesSized ∧ (Spacing.usual : Spacing ℚ).IsRegular ∧ placed.length = 2 ∧
      ∀ p ∈ placed, p.2.Within p.1.diagram.exactSize size := by
  intro c placed size
  have hfits : ∀ m ∈ children .builtin "c" 0 c.entries,
      columnScale .usual m.diagram.exactSize * m.diagram.exactSize.height ≤ 410 := by
    decide +kernel
  obtain ⟨-, hwithin⟩ :=
    within_extent_iff .builtin Registry.builtin_sized .usual isRegular_usual "c" c
  refine ⟨Registry.builtin_sized, isRegular_usual, rfl, hwithin.2 ?_⟩
  intro m hm title _
  exact hfits m hm

/-- A comparison with one diagram that is ten times as high as it is wide. -/
def tallComparison : Combination := ⟨.comparison none, [{ preset := "tall" }]⟩

/-- A registry of one generator, whose diagrams have that shape. -/
def tallRegistry : Registry :=
  Registry.empty.register "tall" (.ofResult fun id _ =>
    .ok ((Builder.ofSize id 100 1000).finish (Diagram.gridEnds_of_hidden rfl)))

theorem tallRegistry_sized : tallRegistry.MakesSized := by
  refine Registry.empty_makes.register (Generator.makes_ofResult fun _ _ d h => ?_) "tall"
  obtain rfl := Except.ok.inj h
  have hsize : (Binary.ofFloat 100).isPositive = true ∧
      (Binary.ofFloat 1000).isPositive = true := by decide
  exact Diagram.isPositive_exactSize ⟨rfl, rfl⟩ hsize

/-- A comparison cuts a tall diagram off. -/
theorem comparison_cuts_tall :
    tallRegistry.MakesSized ∧ (Spacing.usual : Spacing ℚ).IsRegular ∧
      ∃ p ∈ arrange Diagram.exactSize tallRegistry .usual "c" tallComparison,
        (extent Diagram.exactSize tallRegistry .usual "c" tallComparison).height <
          p.2.bottom p.1.diagram.exactSize := by
  refine ⟨tallRegistry_sized, isRegular_usual, ?_⟩
  decide +kernel

end FreeBody.Composition
