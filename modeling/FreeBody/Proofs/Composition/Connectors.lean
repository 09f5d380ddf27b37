import FreeBody.Proofs.Composition.Account

/-!
# Connectors of a series

A connector is drawn behind every diagram of a series whose entry is not the last one, whether or
not any of the entries behind it has a diagram.  So the connectors are the joints between
consecutive diagrams exactly if the last entry has a diagram, or none has, and the two ways to add
up where a connector ends and where the next diagram begins come to the same decimals
(`connectors_join_iff`).  Behind the last diagram of a series that ends with failing entries there
is a connector that leads nowhere (`connector_leads_nowhere`).
-/

namespace FreeBody.Composition

open Markup (Node Tag coordinate)

/-! ## Connectors of a drawing -/

/-- Where a line of the class of connectors starts and ends, as it is written. -/
def connectorEnds (t : Tag) : List (String × String) :=
  if ("class", "fbd-connector") ∈ t.attributes then
    [((t.attributes.lookup "x1").getD "", (t.attributes.lookup "x2").getD "")]
  else []

mutual

/-- The connectors in a tree, apart from the pictures that it takes in. -/
def connectors : Node → List (String × String)
  | .group tag children => connectorEnds tag ++ connectorsOf children
  | .leaf tag => connectorEnds tag
  | .line tag _ => connectorEnds tag
  | .verbatim _ => []

/-- The connectors in a list of trees. -/
def connectorsOf : List Node → List (String × String)
  | [] => []
  | n :: rest => connectors n ++ connectorsOf rest

end

theorem connectorsOf_append (ns ms : List Node) :
    connectorsOf (ns ++ ms) = connectorsOf ns ++ connectorsOf ms := by
  induction ns with
  | nil => rfl
  | cons n ns ih => rw [List.cons_append, connectorsOf, connectorsOf, ih, List.append_assoc]

/-- The right edge of a child at its place. -/
def rightEdge (cp : Child × Place Float) : Float := cp.2.x + cp.1.diagram.width

/-- Where the connector behind a child starts and ends. -/
def connectorSpan (gap : Float) (cp : Child × Place Float) : String × String :=
  (coordinate (rightEdge cp), coordinate (rightEdge cp + gap))

section

variable (s : Spacing Float) (id : String) (count : Nat)

theorem connectors_childGroup (c : Shown) (scaled : Bool) :
    connectors (childGroup c scaled) = [] := by
  cases scaled <;> simp [childGroup, connectors, connectorsOf, connectorEnds]

theorem connectors_connector (c : Shown) :
    connectors (connector id s.gap c) = [connectorSpan s.gap c.placed] := by
  simp [connector, connectors, connectorEnds, connectorSpan, rightEdge, Shown.placed,
    List.lookup_cons]

theorem connectorsOf_drawHead : connectorsOf (drawHead s .series id count) = [] := by
  unfold drawHead
  dsimp only
  split
  · simp [connectorMarker, connectors, connectorsOf, connectorEnds]
  · rfl

theorem connectorsOf_drawChild (c : Shown) :
    connectorsOf (drawChild s .series id count c) =
      if c.child.index + 1 < count then [connectorSpan s.gap c.placed] else [] := by
  rw [drawChild, connectorsOf, connectors_childGroup, List.nil_append]
  split
  · rw [connectorsOf, connectors_connector]
    rfl
  · rfl

/-- A connector is drawn behind each child whose entry is not the last. -/
theorem connectorsOf_draw (shown : List Shown) :
    connectorsOf (draw s .series id count shown) =
      ((shown.map Shown.placed).filter fun cp => cp.1.index + 1 < count).map
        (connectorSpan s.gap) := by
  rw [draw, connectorsOf_append, connectorsOf_drawHead, List.nil_append]
  induction shown with
  | nil => rfl
  | cons c shown ih =>
    rw [List.flatMap_cons, connectorsOf_append, connectorsOf_drawChild, ih, List.map_cons,
      List.filter_cons]
    by_cases hlt : c.child.index + 1 < count <;> simp [hlt, Shown.placed]

end

/-! ## Joints -/

/-- Where the joints between consecutive diagrams start and end: at the right edge of the one and
at the place of the next. -/
def joints (placed : List (Child × Place Float)) : List (String × String) :=
  placed.consecutivePairs.map fun pq => (coordinate (rightEdge pq.1), coordinate pq.2.2.x)

section

variable {placed : List (Child × Place Float)} {count : Nat}

theorem length_joints (placed : List (Child × Place Float)) :
    (joints placed).length = placed.length - 1 := by
  rw [joints, List.length_map, List.consecutivePairs, List.length_zip, List.length_tail]
  omega

/-- The diagrams of a row begin behind each other. -/
theorem isChain_rowPlaces (gap x : Float) (made : List Child) :
    (made.zip (rowPlaces gap x (made.map fun m => (m.index, m.size)))).IsChain
      fun p q => q.2.x = p.2.x + (p.1.diagram.width + gap) := by
  induction made generalizing x with
  | nil => exact .nil
  | cons m made ih =>
    cases made with
    | nil => exact .singleton _
    | cons m' made => exact .cons_cons rfl (ih (x + (m.diagram.width + gap)))

/-- Where the places follow from the sizes, the joints do. -/
theorem joints_eq_map {gap : Float}
    (h : placed.IsChain fun p q => q.2.x = p.2.x + (p.1.diagram.width + gap)) :
    joints placed = placed.dropLast.map fun cp =>
      (coordinate (rightEdge cp), coordinate (cp.2.x + (cp.1.diagram.width + gap))) := by
  induction h with
  | nil => rfl
  | singleton _ => rfl
  | @cons_cons p q rest hpq _ ih =>
    rw [joints] at ih ⊢
    rw [List.dropLast_cons_cons, List.map_cons, ← ih, ← hpq]
    rfl

/-- With rising numbers, only the last diagram can be that of the last entry. -/
theorem filter_eq (hrising : placed.Pairwise fun p q => p.1.index < q.1.index)
    (hlt : ∀ cp ∈ placed, cp.1.index < count) :
    (placed.filter fun cp => cp.1.index + 1 < count) =
      if ∀ cp ∈ placed.getLast?, cp.1.index + 1 = count then placed.dropLast else placed := by
  rcases List.eq_nil_or_concat' placed with rfl | ⟨front, last, rfl⟩
  · rfl
  · have hfront : ∀ cp ∈ front, cp.1.index + 1 < count := by
      intro cp hcp
      have hbefore := (List.pairwise_append.1 hrising).2.2 cp hcp last (List.mem_singleton_self _)
      have hlast := hlt last (List.mem_append_right _ (List.mem_singleton_self _))
      omega
    have hlast := hlt last (List.mem_append_right _ (List.mem_singleton_self _))
    rw [List.filter_append, List.filter_eq_self.2 fun cp hcp => decide_eq_true (hfront cp hcp)]
    by_cases hend : last.1.index + 1 = count
    · rw [if_pos (by simpa using hend), List.filter_cons_of_neg (by simp; omega)]
      simp
    · rw [if_neg (by simpa using hend), List.filter_cons_of_pos (by simp; omega)]
      simp

end

/-! ## Series -/

theorem placed_rising (r : Registry) (s : Spacing Float) (id : String) (c : Combination) :
    ((placedChildren r s id c).Pairwise fun p q => p.1.index < q.1.index) ∧
      ∀ cp ∈ placedChildren r s id c, cp.1.index < c.entries.length := by
  constructor
  · rw [← List.pairwise_map (f := Prod.fst) (R := fun c c' : Child => c.index < c'.index),
      map_fst_placedChildren]
    exact children_rising r id 0 c.entries
  · intro cp hcp
    exact (List.getElem?_eq_some_iff.1 (entry_of_mem_placedChildren hcp).1).1

section

variable (r : Registry) (s : Spacing Float) (id : String) (entries : List Entry)

/-- The connectors of a series start behind its diagrams, but not behind that of the last entry. -/
theorem connectorsOf_series {shown : List Shown}
    (h : placedChildren r s id ⟨.series, entries⟩ = shown.map Shown.placed) :
    let placed := placedChildren r s id ⟨.series, entries⟩
    connectorsOf (draw s .series id entries.length shown) =
      (if ∀ cp ∈ placed.getLast?, cp.1.index + 1 = entries.length then placed.dropLast
        else placed).map (connectorSpan s.gap) := by
  intro placed
  obtain ⟨hrising, hlt⟩ := placed_rising r s id ⟨.series, entries⟩
  rw [connectorsOf_draw, ← h, filter_eq hrising hlt]

/-- The joints of a series follow from the sizes of its diagrams. -/
theorem joints_series :
    let placed := placedChildren r s id ⟨.series, entries⟩
    joints placed = placed.dropLast.map fun cp =>
      (coordinate (rightEdge cp), coordinate (cp.2.x + (cp.1.diagram.width + s.gap))) :=
  joints_eq_map (isChain_rowPlaces s.gap (num 50) (children r id 0 entries))

end

/-- **Connectors join consecutive diagrams, unless the series ends with entries that fail.**  There
is a series exactly if the pictures of its diagrams are finished.  Its drawing has one connector
less than diagrams exactly if the last entry has a diagram, or none has; and the connectors are the
joints exactly if, besides, no joint is rounded in two ways. -/
theorem connectors_join_iff (r : Registry) (s : Spacing Float) (id : String)
    (entries : List Entry) :
    let placed := placedChildren r s id ⟨.series, entries⟩
    let series := (compose r s id ⟨.series, entries⟩).diagram
    (series.isSome = true ↔ ∀ cp ∈ placed, cp.1.diagram.markup.isSome = true) ∧
    ∀ d, series = some d → ∃ shown : List Shown, placed = shown.map Shown.placed ∧
      let drawing := draw s .series id entries.length shown
      d.backgroundMarkup = some (Markup.nodesText drawing) ∧
      ((connectorsOf drawing).length = placed.length - 1 ↔
        ∀ cp ∈ placed.getLast?, cp.1.index + 1 = entries.length) ∧
      (connectorsOf drawing = joints placed ↔
        (∀ cp ∈ placed.getLast?, cp.1.index + 1 = entries.length) ∧
          ∀ cp ∈ placed.dropLast, coordinate (rightEdge cp + s.gap) =
            coordinate (cp.2.x + (cp.1.diagram.width + s.gap))) := by
  intro placed series
  refine ⟨isSome_compose_iff, fun d hd => ?_⟩
  obtain ⟨size, shown, hshown, rfl⟩ := exists_of_compose hd
  refine ⟨shown, hshown, ?_⟩
  intro drawing
  have hdrawn : connectorsOf drawing = _ := connectorsOf_series r s id entries hshown
  have hjoints : joints placed = _ := joints_series r s id entries
  refine ⟨rfl, ?_⟩
  by_cases hend : ∀ cp ∈ placed.getLast?, cp.1.index + 1 = entries.length
  · rw [if_pos hend] at hdrawn
    rw [hdrawn, hjoints, List.map_inj_left, List.length_map, List.length_dropLast]
    refine ⟨iff_of_true rfl hend, ?_⟩
    simp only [connectorSpan, Prod.mk.injEq, true_and]
    exact ⟨fun h => ⟨hend, h⟩, fun h => h.2⟩
  · have hlength : (connectorsOf drawing).length ≠ placed.length - 1 := by
      have hpos : 0 < placed.length := by
        rw [List.length_pos_iff]
        intro hnil
        exact hend (by simp [hnil])
      rw [hdrawn, if_neg hend, List.length_map]
      change placed.length ≠ placed.length - 1
      omega
    refine ⟨iff_of_false hlength hend, iff_of_false (fun heq => hlength ?_) fun h => hend h.1⟩
    rw [heq, length_joints]

/-- Entries that fail in front of the last diagram do not matter. -/
theorem connectors_join_incline_hanging :
    let entries : List Entry :=
      [{ preset := "lost" }, { preset := "incline" }, { preset := "lost" }, { preset := "hanging" }]
    let placed := placedChildren .builtin .usual "s" ⟨.series, entries⟩
    joints placed = [("650", "700")] ∧
      ∃ d shown, (compose .builtin .usual "s" ⟨.series, entries⟩).diagram = some d ∧
        placed = shown.map Shown.placed ∧
        d.backgroundMarkup = some (Markup.nodesText (draw .usual .series "s" 4 shown)) ∧
        connectorsOf (draw .usual .series "s" 4 shown) = joints placed := by
  intro entries placed
  obtain ⟨hplaces, hlast, hrounded⟩ : joints placed = [("650", "700")] ∧
      (∀ cp ∈ placed.getLast?, cp.1.index + 1 = 4) ∧
      ∀ cp ∈ placed.dropLast, coordinate (rightEdge cp + 50) =
        coordinate (cp.2.x + (cp.1.diagram.width + 50)) := by
    decide +kernel
  obtain ⟨d, hd⟩ :=
    Option.isSome_iff_exists.1 (isSome_compose_of_finished Registry.builtin_finished)
  obtain ⟨shown, hshown, hart, -, hjoints⟩ :=
    (connectors_join_iff .builtin .usual "s" entries).2 d hd
  exact ⟨hplaces, d, shown, hd, hshown, hart, hjoints.2 ⟨hlast, hrounded⟩⟩

/-- Behind a gap of `2 ^ 57` the two sums differ by the distance of neighbouring doubles. -/
example : ((50 : Float) + 600) + 144115188075855872 ≠ 50 + (600 + 144115188075855872) := by
  decide +kernel

/-- The only diagram of a series with a failing entry behind it has a connector. -/
theorem connector_leads_nowhere :
    let c : Combination := ⟨.series, [{ preset := "incline" }, { preset := "lost" }]⟩
    let placed := placedChildren .builtin .usual "s" c
    placed.length = 1 ∧ joints placed = [] ∧
      (placed.mapM show?).map (fun shown => connectorsOf (draw .usual .series "s" 2 shown)) =
        some [("650", "700")] := by
  decide +kernel

end FreeBody.Composition
