import FreeBody.Proofs.Composition.Exact
import FreeBody.Proofs.Preset.Steady

/-!
# Failing entries take no room

In a series, a stack and a comparison a diagram goes where the one before it has ended, whatever
the numbers of their entries are.  So two lists of entries that differ only in entries without a
diagram (`Alike`) give the same places and the same canvas (`failing_take_no_room`), as long as
the ids, which follow the numbers, have no say in the sizes (`Registry.SizesSteady`).
-/

namespace FreeBody

open FreeBody.Composition (Size)

/-! ## Sizes without ids -/

/-- The size of the diagram that a run ends with, if it ends with one. -/
def Outcome.size? (o : Outcome) : Option (Size Float) :=
  o.result.toOption.map fun d => ⟨d.width, d.height⟩

/-- Whether the id has no say in whether a generator succeeds and how large its diagram is. -/
def Generator.SizeSteady (g : Generator) : Prop :=
  ∀ args id id', (g id args).size? = (g id' args).size?

/-- Whether the ids have no say in the sizes of the diagrams of a registry. -/
def Registry.SizesSteady (r : Registry) : Prop := ∀ name g, r.get? name = some g → g.SizeSteady

/-- A generator of diagrams of one size is only asked to succeed under every id or under none. -/
theorem Generator.sizeSteady_ofResult {f : String → List Argument → Except GeneratorError Diagram}
    {width height : Float} (hok : ∀ args id id', (f id args).isOk = (f id' args).isOk)
    (hsize : ∀ {id args d}, f id args = .ok d → d.width = width ∧ d.height = height) :
    (Generator.ofResult f).SizeSteady := by
  have hfixed : ∀ id args, (ofResult f id args).size? =
      if (f id args).isOk then some ⟨width, height⟩ else none := by
    intro id args
    rw [Outcome.size?, result_ofResult]
    cases hrun : f id args with
    | error e => rfl
    | ok d =>
      obtain ⟨hwidth, hheight⟩ := hsize hrun
      rw [← hwidth, ← hheight]
      rfl
  intro args id id'
  rw [hfixed, hfixed, hok args id id']

theorem Registry.builtin_sizesSteady : Registry.builtin.SizesSteady := by
  refine forall_builtin ?_ ?_ ?_ ?_
  · exact Generator.sizeSteady_ofResult Preset.isOk_incline Preset.incline_size
  · exact Generator.sizeSteady_ofResult Preset.isOk_hanging Preset.hanging_size
  · exact Generator.sizeSteady_ofResult Preset.isOk_pulley Preset.pulley_size
  · exact Generator.sizeSteady_ofResult Preset.isOk_beam Preset.beam_size

/-- Whether an entry has no diagram: its preset is unknown, or its generator fails. -/
def Entry.Fails (r : Registry) (e : Entry) : Prop :=
  r.get? e.preset = none ∨
    ∃ g, r.get? e.preset = some g ∧ ∃ id err, (g id e.args).result = .error err

/-- What is seen of a placement: its preset, where it is and how it is scaled. -/
def Placement.shown (p : Placement) : String × Float × Float × Float :=
  (p.preset, p.place.x, p.place.y, p.place.scale)

namespace Composition

/-- Whether two lists of entries differ only in entries that fail, anywhere in the one or the
other. -/
inductive Alike (r : Registry) : List Entry → List Entry → Prop
  | nil : Alike r [] []
  | both (e : Entry) {es es' : List Entry} : Alike r es es' → Alike r (e :: es) (e :: es')
  | left {e : Entry} {es es' : List Entry} : e.Fails r → Alike r es es' → Alike r (e :: es) es'
  | right {e : Entry} {es es' : List Entry} : e.Fails r → Alike r es es' → Alike r es (e :: es')

/-! ## Children -/

/-- Whether two children show the same preset at the same size. -/
structure Child.Like (c c' : Child) : Prop where
  preset : c.entry.preset = c'.entry.preset
  size : c.size = c'.size

section

variable {r : Registry} (hr : r.SizesSteady) (id : String)

include hr

theorem size_runEntry (index index' : Nat) (e : Entry) :
    (runEntry r id index e).toOption.map (fun d => (⟨d.width, d.height⟩ : Size Float)) =
      (runEntry r id index' e).toOption.map fun d => ⟨d.width, d.height⟩ := by
  unfold runEntry Registry.generate?
  cases hget : r.get? e.preset with
  | none => rfl
  | some g =>
    have hsize := hr _ g hget e.args (childId id index) (childId id index')
    unfold Outcome.size? at hsize
    rw [Option.map_some, Option.map_some]
    cases h : (g (childId id index) e.args).result <;>
      cases h' : (g (childId id index') e.args).result <;> rw [h, h'] at hsize <;>
        exact hsize

theorem runEntry_of_fails {e : Entry} (he : e.Fails r) (index : Nat) :
    ∃ reason, runEntry r id index e = .error reason := by
  rcases he with hnone | ⟨g, hget, id', err, hfails⟩
  · exact ⟨_, runEntry_eq_error_iff.2 (.inl ⟨hnone, rfl⟩)⟩
  · have hsize := hr _ g hget e.args id' (childId id index)
    unfold Outcome.size? at hsize
    rw [hfails] at hsize
    cases hrun : (g (childId id index) e.args).result with
    | ok d =>
      rw [hrun] at hsize
      cases hsize
    | error err' =>
      refine ⟨_, runEntry_eq_error_iff.2 (.inr ⟨err', ?_, rfl⟩)⟩
      rw [Registry.generate?, hget, Option.map_some, hrun]

/-- Entries that fail have no children, and the others have children of the same kind. -/
theorem Alike.children {es es' : List Entry} (h : Alike r es es') (index index' : Nat) :
    List.Forall₂ Child.Like (children r id index es) (children r id index' es') := by
  induction h generalizing index index' with
  | nil => exact .nil
  | both e _ ih =>
    have hsize := size_runEntry hr id index index' e
    rw [Composition.children, Composition.children]
    cases hrun : runEntry r id index e <;> cases hrun' : runEntry r id index' e <;>
      rw [hrun, hrun'] at hsize
    · exact ih _ _
    · cases hsize
    · cases hsize
    · exact .cons ⟨rfl, Option.some.inj hsize⟩ (ih _ _)
  | left he _ ih =>
    obtain ⟨reason, hrun⟩ := runEntry_of_fails hr id he index
    rw [Composition.children, hrun]
    exact ih _ _
  | right he _ ih =>
    obtain ⟨reason, hrun⟩ := runEntry_of_fails hr id he index'
    rw [Composition.children.eq_def r id index' (_ :: _)]
    simp only [hrun]
    exact ih _ _

end

/-! ## Places -/

section

variable {α : Type} [Quantity α]

/-- Where a place is and how it is scaled, apart from its cell. -/
def Place.spot (p : Place α) : α × α × α := (p.x, p.y, p.scale)

variable {sized sized' : List (Nat × Size α)}

theorem spot_rowPlaces (h : List.Forall₂ (fun m m' => m.2 = m'.2) sized sized') (gap x : α) :
    (rowPlaces gap x sized).map Place.spot = (rowPlaces gap x sized').map Place.spot := by
  induction h generalizing x with
  | nil => rfl
  | @cons m m' _ _ hsize _ ih =>
    rw [rowPlaces, rowPlaces, List.map_cons, List.map_cons, hsize, ih]
    rfl

theorem spot_stackPlaces (h : List.Forall₂ (fun m m' => m.2 = m'.2) sized sized') (gap y : α) :
    (stackPlaces gap y sized).map Place.spot = (stackPlaces gap y sized').map Place.spot := by
  induction h generalizing y with
  | nil => rfl
  | @cons m m' _ _ hsize _ ih =>
    rw [stackPlaces, stackPlaces, List.map_cons, List.map_cons, hsize, ih]
    rfl

theorem spot_columnPlaces (h : List.Forall₂ (fun m m' => m.2 = m'.2) sized sized')
    (s : Spacing α) (x : α) (column : Nat) :
    (columnPlaces s x column sized).map Place.spot =
      (columnPlaces s x column sized').map Place.spot := by
  induction h generalizing x column with
  | nil => rfl
  | @cons m m' _ _ hsize _ ih =>
    rw [columnPlaces, columnPlaces, List.map_cons, List.map_cons, hsize, ih]

/-- Outside of grids, places depend on the sizes alone. -/
theorem spot_places (h : List.Forall₂ (fun m m' => m.2 = m'.2) sized sized') (s : Spacing α)
    {layout : Layout} (hlayout : ∀ columns, layout ≠ .grid columns) :
    (places s layout sized).map Place.spot = (places s layout sized').map Place.spot := by
  cases layout with
  | series => exact spot_rowPlaces h _ _
  | parallel => exact spot_stackPlaces h _ _
  | grid columns => exact absurd rfl (hlayout columns)
  | comparison title => exact spot_columnPlaces h s _ _

/-- Outside of grids, so does the canvas. -/
theorem canvas_eq (s : Spacing α) {layout : Layout} (hlayout : ∀ columns, layout ≠ .grid columns)
    (count count' : Nat) (sizes : List (Size α)) :
    canvas s layout count sizes = canvas s layout count' sizes := by
  cases layout with
  | grid columns => exact absurd rfl (hlayout columns)
  | _ => rfl

end

/-! ## Compositions -/

theorem map_eq_of_forall₂ {β γ : Type} {f : β → γ} {bs bs' : List β}
    (h : List.Forall₂ (fun b b' => f b = f b') bs bs') : bs.map f = bs'.map f := by
  rw [← List.forall₂_eq_eq_eq, List.forall₂_map_left_iff, List.forall₂_map_right_iff]
  exact h

/-- **Failing entries take no room.**  In a series, a stack or a comparison, putting in or leaving
out entries without a diagram changes neither the presets, places and scales of the placements nor
the size of the canvas, which is that of the composed diagram. -/
theorem failing_take_no_room {r : Registry} (hr : r.SizesSteady) (s : Spacing Float) (id : String)
    {layout : Layout} (hlayout : ∀ columns, layout ≠ .grid columns) {es es' : List Entry}
    (h : Alike r es es') :
    (compose r s id ⟨layout, es⟩).placements.map Placement.shown =
      (compose r s id ⟨layout, es'⟩).placements.map Placement.shown ∧
    extent (fun d => ⟨d.width, d.height⟩) r s id ⟨layout, es⟩ =
      extent (fun d => ⟨d.width, d.height⟩) r s id ⟨layout, es'⟩ ∧
    ∀ d d', (compose r s id ⟨layout, es⟩).diagram = some d →
      (compose r s id ⟨layout, es'⟩).diagram = some d' →
        d.width = d'.width ∧ d.height = d'.height := by
  have hmade := h.children hr id 0 0
  have hpresets : (children r id 0 es).map (·.entry.preset) =
      (children r id 0 es').map (·.entry.preset) :=
    map_eq_of_forall₂ (hmade.imp fun _ _ hlike => hlike.preset)
  have hsizes : (children r id 0 es).map Child.size = (children r id 0 es').map Child.size :=
    map_eq_of_forall₂ (hmade.imp fun _ _ hlike => hlike.size)
  have hsized : List.Forall₂ (fun m m' => m.2 = m'.2)
      ((children r id 0 es).map fun m => (m.index, m.size))
      ((children r id 0 es').map fun m => (m.index, m.size)) := by
    rw [List.forall₂_map_left_iff, List.forall₂_map_right_iff]
    exact hmade.imp fun _ _ hlike => hlike.size
  have hplacements : ∀ entries,
      (compose r s id ⟨layout, entries⟩).placements.map Placement.shown =
      ((children r id 0 entries).map (·.entry.preset)).zip ((places s layout
        ((children r id 0 entries).map fun m => (m.index, m.size))).map Place.spot) := by
    intro entries
    rw [placements_compose, placedChildren, List.map_map, List.zip_map]
    rfl
  have hcanvas : canvas s layout es.length ((children r id 0 es).map Child.size) =
      canvas s layout es'.length ((children r id 0 es').map Child.size) := by
    rw [hsizes]
    exact canvas_eq s hlayout _ _ _
  refine ⟨?_, hcanvas, fun d d' hd hd' => ?_⟩
  · rw [hplacements, hplacements, hpresets, spot_places hsized s hlayout]
  · have hsize : (⟨d.width, d.height⟩ : Size Float) = ⟨d'.width, d'.height⟩ :=
      (size_of_compose hd).trans (hcanvas.trans (size_of_compose hd').symm)
    exact Size.mk.inj hsize

/-- Three entries that fail, in front of, between and behind two that do not. -/
theorem failing_take_no_room_series :
    let es : List Entry := [{ preset := "lost" }, { preset := "incline" },
      { preset := "beam", args := [.bool true] }, { preset := "hanging" }, { preset := "lost" }]
    let es' : List Entry := [{ preset := "incline" }, { preset := "hanging" }]
    Registry.builtin.SizesSteady ∧ (∀ columns, Layout.series ≠ .grid columns) ∧
      Alike .builtin es es' ∧
      (compose .builtin .usual "s" ⟨.series, es⟩).placements.map Placement.shown =
        (compose .builtin .usual "s" ⟨.series, es'⟩).placements.map Placement.shown ∧
      ∃ d d', (compose .builtin .usual "s" ⟨.series, es⟩).diagram = some d ∧
        (compose .builtin .usual "s" ⟨.series, es'⟩).diagram = some d' ∧
        d.width = d'.width ∧ d.height = d'.height := by
  intro es es'
  have hlost : Entry.Fails .builtin { preset := "lost" } := .inl rfl
  have hbeam : Entry.Fails .builtin { preset := "beam", args := [.bool true] } :=
    .inr ⟨_, rfl, "", _, rfl⟩
  have halike : Alike .builtin es es' :=
    .left hlost (.both _ (.left hbeam (.both _ (.left hlost .nil))))
  have hlayout : ∀ columns, Layout.series ≠ .grid columns := nofun
  have hexists (entries : List Entry) :
      ∃ d, (compose .builtin .usual "s" ⟨.series, entries⟩).diagram = some d :=
    Option.isSome_iff_exists.1 (isSome_compose_of_finished Registry.builtin_finished)
  obtain ⟨d, hd⟩ := hexists es
  obtain ⟨d', hd'⟩ := hexists es'
  obtain ⟨hplacements, -, hsizes⟩ :=
    failing_take_no_room Registry.builtin_sizesSteady .usual "s" hlayout halike
  exact ⟨Registry.builtin_sizesSteady, hlayout, halike, hplacements, d, d', hd, hd',
    hsizes d d' hd hd'⟩

end Composition

end FreeBody
