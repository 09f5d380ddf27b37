import FreeBody.Composition.Placement
import FreeBody.Composition.Reader
import FreeBody.Preset.Builtin

/-!
# Composing diagrams

The presets of the entries are run, each under an id of its own; entries whose preset is unknown
or fails are set aside with the reason.  The diagrams are placed, and drawn together with
connectors, cells and captions as the background of one diagram.  A diagram that comes without its
picture is drawn, and if that never ends there is no composed diagram.
-/

namespace FreeBody

/-- Why an entry has no diagram. -/
inductive SkipReason
  | unknownPreset
  | generator (e : GeneratorError)

/-- An entry that has no diagram. -/
structure Skipped where
  index : Nat
  preset : String
  reason : SkipReason

/-- Where the diagram of an entry went. -/
structure Placement where
  index : Nat
  preset : String
  place : Composition.Place Float

/-- A composed diagram, with an account of its entries.  There is no diagram if the drawing of one
of its children never ends; the account has no need of the drawings. -/
structure Composed where
  diagram : Option Diagram
  placements : List Placement
  skipped : List Skipped

namespace Composition

open Markup (Node coordinate plainRuns)

/-! ## Children -/

/-- The diagram of an entry. -/
structure Child where
  index : Nat
  entry : Entry
  diagram : Diagram

def Child.size (c : Child) : Size Float := ⟨c.diagram.width, c.diagram.height⟩

/-- The id of the diagram of the entry `index` within the composition `id`. -/
def childId (id : String) (index : Nat) : String := id ++ "-" ++ toString index

/-- The diagram of an entry, or why there is none. -/
def runEntry (r : Registry) (id : String) (index : Nat) (e : Entry) :
    Except SkipReason Diagram :=
  match r.generate? e.preset (childId id index) e.args with
  | some (.ok d) => .ok d
  | some (.error err) => .error (.generator err)
  | none => .error .unknownPreset

/-- The entries from `index` on that have a diagram. -/
def children (r : Registry) (id : String) : Nat → List Entry → List Child
  | _, [] => []
  | index, e :: rest =>
    match runEntry r id index e with
    | .ok d => ⟨index, e, d⟩ :: children r id (index + 1) rest
    | .error _ => children r id (index + 1) rest

/-- The entries from `index` on that have none. -/
def skipped (r : Registry) (id : String) : Nat → List Entry → List Skipped
  | _, [] => []
  | index, e :: rest =>
    match runEntry r id index e with
    | .ok _ => skipped r id (index + 1) rest
    | .error reason => ⟨index, e.preset, reason⟩ :: skipped r id (index + 1) rest

/-! ## Pictures of children -/

/-- A child at its place, with its picture. -/
structure Shown where
  child : Child
  place : Place Float
  picture : String
  markup : child.diagram.markup = some picture

/-- A shown child and its place. -/
def Shown.placed (c : Shown) : Child × Place Float := (c.child, c.place)

/-- A child at its place, if its picture is ever finished. -/
def show? (cp : Child × Place Float) : Option Shown :=
  match h : cp.1.diagram.markup with
  | some picture => some ⟨cp.1, cp.2, picture, h⟩
  | none => none

theorem show?_eq_some_iff {cp : Child × Place Float} {c : Shown} :
    show? cp = some c ↔ cp = c.placed := by
  unfold show?
  split
  next picture h =>
    constructor
    · rintro ⟨⟩
      rfl
    · rintro rfl
      obtain rfl := Option.some.inj (h.symm.trans c.markup)
      rfl
  next h =>
    refine iff_of_false nofun ?_
    rintro rfl
    cases h.symm.trans c.markup

theorem isSome_show?_iff {cp : Child × Place Float} :
    (show? cp).isSome = true ↔ cp.1.diagram.markup.isSome = true := by
  unfold show?
  split
  next picture h => simp [h]
  next h => simp [h]

/-! ## Drawing -/

/-- The picture of a child in a group that bears its id. -/
def childGroup (c : Shown) (scaled : Bool) : Node :=
  let content := Node.verbatim (Markup.stripRoot c.picture)
  .group ⟨"g", [
    ("id", c.child.diagram.id),
    ("class", "fbd-composed"),
    ("transform", "translate(" ++ coordinate c.place.x ++ ", " ++ coordinate c.place.y ++ ")")]⟩
    [if scaled then
      .group ⟨"g", [("transform", "scale(" ++ coordinate c.place.scale ++ ")")]⟩ [content]
    else content]

/-- A line of text in the composition. -/
def caption (x y : Float) (size : String) (anchor : List (String × String)) (fill text : String) :
    Node :=
  .line ⟨"text",
    ("class", "fbd-caption") ::
    ("x", coordinate x) ::
    ("y", coordinate y) ::
    ("font-size", size) :: anchor ++ [("fill", fill)]⟩ (plainRuns text)

/-- Centres a caption. -/
def centred : List (String × String) := [("text-anchor", "middle")]

/-- The id of the marker at the end of connectors. -/
def connectorId (id : String) : String := id ++ "-series-arrow"

/-- The marker at the end of connectors. -/
def connectorMarker (id : String) : Node :=
  .group ⟨"defs", []⟩ [
    .group ⟨"marker", [
      ("id", connectorId id),
      ("markerWidth", "10"),
      ("markerHeight", "10"),
      ("refX", "9"),
      ("refY", "3"),
      ("orient", "auto")]⟩ [
      .leaf ⟨"polygon", [("points", "0 0, 10 3, 0 6"), ("fill", "#666")]⟩]]

/-- The connector from a child to the place of the next. -/
def connector (id : String) (gap : Float) (c : Shown) : Node :=
  .leaf ⟨"line", [
    ("class", "fbd-connector"),
    ("x1", coordinate (c.place.x + c.child.diagram.width)),
    ("y1", "200"),
    ("x2", coordinate (c.place.x + c.child.diagram.width + gap)),
    ("y2", "200"),
    ("stroke", "#666"),
    ("stroke-width", "2"),
    ("marker-end", reference (connectorId id))]⟩

/-- The frame of a grid cell. -/
def cellFrame (cell : Size Float) (p : Place Float) : Node :=
  .leaf ⟨"rect", [
    ("class", "fbd-cell"),
    ("x", coordinate (p.x - 10)),
    ("y", coordinate (p.y - 10)),
    ("width", coordinate (cell.width + 20)),
    ("height", coordinate (cell.height + 20)),
    ("fill", "#f9fafb"),
    ("stroke", "#e5e7eb"),
    ("stroke-width", "2"),
    ("rx", "10")]⟩

/-- What is drawn for a child of a composition of `count` entries. -/
def drawChild (s : Spacing Float) (layout : Layout) (id : String) (count : Nat) (c : Shown) :
    List Node :=
  let p := c.place
  match layout with
  | .series =>
    childGroup c false :: if c.child.index + 1 < count then [connector id s.gap c] else []
  | .parallel => [
    childGroup c false,
    caption 20 (p.y + c.child.diagram.height / 2) "14" [] "#666" (toString (c.child.index + 1))]
  | .grid _ => [
    cellFrame s.gridCell p,
    childGroup c true,
    caption (p.x + s.gridCell.width / 2) (p.y + s.gridCell.height + 30) "14" centred "#333"
      c.child.entry.caption]
  | .comparison _ => [
    caption (p.x + s.compareWidth / 2) 70 "16" centred "#2563eb" c.child.entry.caption,
    childGroup c true]

/-- What is drawn before the children. -/
def drawHead (s : Spacing Float) (layout : Layout) (id : String) (count : Nat) : List Node :=
  match layout with
  | .series => if 1 < count then [connectorMarker id] else []
  | .comparison (some title) => [
    caption (Float.ofNat count * (s.compareWidth + s.compareGap) / 2) 30 "20" centred "#333"
      title]
  | _ => []

/-- The drawing of a composition. -/
def draw (s : Spacing Float) (layout : Layout) (id : String) (count : Nat) (shown : List Shown) :
    List Node :=
  drawHead s layout id count ++ shown.flatMap (drawChild s layout id count)

/-! ## Composing -/

/-- A diagram that shows a drawing as its background and nothing else. -/
def framed (id : String) (size : Size Float) (drawing : List Node) : Diagram :=
  let d : Diagram := {
    id, width := size.width, height := size.height, showAxes := some false,
    showGrid := some false, backgroundMarkup := some (Markup.nodesText drawing) }
  d.finished (Diagram.gridEnds_of_hidden rfl)

/-- Composes a combination under an id. -/
def compose (r : Registry) (s : Spacing Float) (id : String) (c : Combination) : Composed :=
  let made := children r id 0 c.entries
  let sized := made.map fun m => (m.index, m.size)
  let placed := made.zip (places s c.layout sized)
  let count := c.entries.length
  { diagram := (placed.mapM show?).map fun shown =>
      framed id (canvas s c.layout count (made.map Child.size)) (draw s c.layout id count shown)
    placements := placed.map fun mp => ⟨mp.1.index, mp.1.entry.preset, mp.2⟩
    skipped := skipped r id 0 c.entries }

/-- Composes the combination that a text writes, under the id of its layout. -/
def composeText (r : Registry) (s : Spacing Float) (text : String) :
    Except CompactError Composed :=
  (readCombination text.toList).map fun c => compose r s c.layout.defaultId c

/-! ## Existence -/

section

variable {α β : Type} {f : α → Option β} {xs : List α} {ys : List β}

theorem mapM_eq_some_iff : xs.mapM f = some ys ↔ xs.map f = ys.map some := by
  induction xs generalizing ys with
  | nil => cases ys <;> simp
  | cons x xs ih =>
    rw [List.mapM_cons]
    cases ys with
    | nil => cases f x <;> cases xs.mapM f <;> simp
    | cons y ys =>
      rw [List.map_cons, List.map_cons, List.cons.injEq, ← ih]
      cases f x <;> cases xs.mapM f <;> simp

theorem isSome_mapM_iff : (xs.mapM f).isSome = true ↔ ∀ x ∈ xs, (f x).isSome = true := by
  induction xs with
  | nil => simp
  | cons x xs ih =>
    rw [List.mapM_cons, List.forall_mem_cons, ← ih]
    cases f x <;> cases xs.mapM f <;> simp

end

/-- All children are shown, each at its place. -/
theorem mapM_show?_eq_some_iff {placed : List (Child × Place Float)} {shown : List Shown} :
    placed.mapM show? = some shown ↔ placed = shown.map Shown.placed := by
  rw [mapM_eq_some_iff]
  induction placed generalizing shown with
  | nil => cases shown <;> simp
  | cons cp placed ih =>
    cases shown with
    | nil => simp
    | cons c shown => simp [ih, show?_eq_some_iff]

section

variable {r : Registry} {s : Spacing Float} {id : String} {c : Combination}

/-- A composition of diagrams whose pictures are finished is finished. -/
theorem isSome_compose (h : ∀ m ∈ children r id 0 c.entries, m.diagram.markup.isSome = true) :
    (compose r s id c).diagram.isSome = true := by
  rw [compose, Option.isSome_map, isSome_mapM_iff]
  intro cp hcp
  rw [isSome_show?_iff]
  exact h cp.1 (List.of_mem_zip hcp).1

theorem finished_of_compose {d : Diagram} (h : (compose r s id c).diagram = some d) :
    d.IsFinished := by
  obtain ⟨shown, -, rfl⟩ := Option.map_eq_some_iff.1 h
  rfl

variable (hr : r.Makes fun _ d => d.IsFinished)

include hr

theorem runEntry_finished {index : Nat} {e : Entry} {d : Diagram}
    (h : runEntry r id index e = .ok d) : d.IsFinished := by
  unfold runEntry at h
  split at h
  next made hmade => exact Except.ok.inj h ▸ hr _ _ _ _ hmade
  next => cases h
  next => cases h

theorem children_finished (index : Nat) (entries : List Entry) :
    ∀ m ∈ children r id index entries, m.diagram.IsFinished := by
  induction entries generalizing index with
  | nil => exact List.forall_mem_nil _
  | cons e rest ih =>
    rw [children]
    split
    next d hrun => exact List.forall_mem_cons.2 ⟨runEntry_finished hr hrun, ih _⟩
    next => exact ih _

/-- So are all compositions of presets whose diagrams carry their pictures. -/
theorem isSome_compose_of_finished : (compose r s id c).diagram.isSome = true :=
  isSome_compose fun m hm => (children_finished hr 0 c.entries m hm).isSome_markup

end

end Composition

end FreeBody
