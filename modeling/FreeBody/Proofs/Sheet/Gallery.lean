import FreeBody.Proofs.Compact.Plain
import FreeBody.Proofs.Composition.Names
import FreeBody.Sheet.Command

/-!
# Names on a page

A line that is a compact text gives its picture an id with its own number, but a combination is
drawn under the id of its layout, whatever line it is on.  So the pictures on a page have their ids
for themselves exactly if no two lines are combinations of one kind (`gallery_ids_distinct_iff`).
-/

namespace FreeBody.Sheet

open Markup (Extends NamesUnder ids references)

namespace Line

/-- The diagram of a line, if it has one. -/
def diagram? (l : Line) : Option Diagram := l.diagram.toOption

theorem diagram?_eq_some {l : Line} {d : Diagram} (h : l.diagram? = some d) :
    l.diagram = .ok d := by
  unfold diagram? at h
  cases hd : l.diagram with
  | error e =>
    rw [hd] at h
    cases h
  | ok d' =>
    rw [hd] at h
    rw [Option.some.inj h]

/-- The id that a line is composed under, if it is a combination. -/
def layoutId? (l : Line) : Option String :=
  if l.isCombination then
    (Composition.readCombination l.text.toList).toOption.map fun c => c.layout.defaultId
  else none

theorem isId_id (l : Line) : IsId l.id := IsId.append (by decide) (isId_toString l.number)

theorem toList_id (l : Line) : l.id.toList = "line-".toList ++ Decimal.digits l.number := by
  rw [id, String.toList_append, Decimal.toList_toString]

/-- The ids of layouts. -/
def layoutIds : List String := ["combo-series", "combo-parallel", "combo-grid", "combo-compare"]

theorem defaultId_mem (layout : Layout) : layout.defaultId ∈ layoutIds := by
  cases layout <;> simp [Layout.defaultId, layoutIds]

theorem isId_defaultId (layout : Layout) : IsId layout.defaultId := by
  have hids : ∀ id ∈ layoutIds, IsId id := by decide
  exact hids _ (defaultId_mem layout)

theorem id_of_compose {c : Combination} {d : Diagram}
    (h : (Composition.compose .builtin .usual c.layout.defaultId c).diagram = some d) :
    d.id = c.layout.defaultId := by
  obtain ⟨shown, -, rfl⟩ := Option.map_eq_some_iff.1 h
  rfl

/-- A combination is drawn under the id of its layout. -/
theorem exists_of_layoutId {l : Line} {id : String} (h : l.layoutId? = some id) :
    ∃ (c : Combination) (d : Diagram), c.layout.defaultId = id ∧
      (Composition.compose .builtin .usual c.layout.defaultId c).diagram = some d ∧
      l.diagram = .ok d := by
  unfold layoutId? at h
  split at h
  next hl =>
    cases hread : Composition.readCombination l.text.toList with
    | error e =>
      rw [hread] at h
      cases h
    | ok c =>
      rw [hread] at h
      have hcomposed : l.composed =
          .ok (Composition.compose .builtin .usual c.layout.defaultId c) := by
        rw [composed, Composition.composeText, hread]
        rfl
      obtain ⟨d, hd⟩ := Option.isSome_iff_exists.1 (isSome_composed hcomposed)
      exact ⟨c, d, Option.some.inj h, hd, diagram_of_composed hl hcomposed hd⟩
  next => cases h

/-- What is composed under the id of a layout is a diagram with that id. -/
theorem id_of_layoutId {l : Line} {id : String} (h : l.layoutId? = some id) :
    l.diagram?.map Diagram.id = some id := by
  obtain ⟨c, d, rfl, hd, hdiagram⟩ := exists_of_layoutId h
  rw [diagram?, hdiagram]
  exact congrArg some (id_of_compose hd)

/-- What is drawn under the id of a layout has its names under that id, which is one of them. -/
theorem picture_of_layoutId {l : Line} {id : String} (h : l.layoutId? = some id) :
    ∃ picture, l.picture = .ok picture ∧ id.toList ∈ ids picture.toList ∧
      NamesUnder id.toList picture.toList := by
  obtain ⟨c, d, rfl, hd, hdiagram⟩ := exists_of_layoutId h
  obtain ⟨picture, hpicture, hmem, hnames⟩ :=
    Composition.compose_namesUnder Registry.builtin_plain .usual c (isId_defaultId c.layout)
  rw [hd, Option.bind_some] at hpicture
  exact ⟨picture, picture_of_diagram hdiagram hpicture, hmem, hnames⟩

/-- A line has a combination under the id of a layout, or a compact text under its own id. -/
theorem layoutId_or_parsed {l : Line} {d : Diagram} (h : l.diagram = .ok d) :
    (∃ id, l.layoutId? = some id) ∨ ∃ p, l.parsed = .ok p ∧ d = p.diagram := by
  cases hl : l.isCombination with
  | true =>
    left
    cases hread : Composition.readCombination l.text.toList with
    | error e =>
      have hcomposed : l.composed = .error e := by
        rw [composed, Composition.composeText, hread]
        rfl
      cases h.symm.trans (diagram_of_not_composed hl hcomposed)
    | ok c =>
      rw [layoutId?, if_pos hl, hread]
      exact ⟨_, rfl⟩
  | false =>
    right
    rw [diagram_of_parsed hl] at h
    cases hp : l.parsed with
    | error e =>
      rw [hp] at h
      cases h
    | ok p =>
      rw [hp] at h
      exact ⟨p, rfl, (Except.ok.inj h).symm⟩

/-- A picture has its names under the id of its diagram, which is that of its line or of its
layout. -/
theorem names_of_diagram {l : Line} {d : Diagram} (h : l.diagram = .ok d) :
    (∃ picture, l.picture = .ok picture ∧ NamesUnder d.id.toList picture.toList) ∧
      (d.id = l.id ∨ d.id ∈ layoutIds ∧ l.layoutId? = some d.id) := by
  rcases layoutId_or_parsed h with ⟨id, hid⟩ | ⟨p, hp, rfl⟩
  · obtain ⟨c, d', rfl, hd, hdiagram⟩ := exists_of_layoutId hid
    obtain rfl := Except.ok.inj (hdiagram.symm.trans h)
    obtain ⟨picture, hpicture, -, hnames⟩ := picture_of_layoutId hid
    rw [id_of_compose hd]
    exact ⟨⟨picture, hpicture, hnames⟩, .inr ⟨defaultId_mem _, hid⟩⟩
  · obtain ⟨hid, hplain⟩ := Compact.plainAs_of_read Registry.builtin_plain hp
    obtain ⟨picture, hpicture, hnames⟩ :=
      Drawing.exists_picture_of_plain hplain (hid ▸ l.isId_id)
    exact ⟨⟨picture, picture_of_diagram h hpicture, hnames⟩, .inl hid⟩

/-- The names in two pictures differ if their lines have other numbers and are not composed under
the same id. -/
theorem apart {l l' : Line} {d d' : Diagram} (h : l.diagram = .ok d) (h' : l'.diagram = .ok d')
    (hnumber : l.number ≠ l'.number)
    (hlayout : ∀ id, l.layoutId? = some id → ∀ id', l'.layoutId? = some id' → id ≠ id')
    {x : List Char} (hx : Extends d.id.toList x) (hx' : Extends d'.id.toList x) : False := by
  have hline : ∀ id ∈ layoutIds, 1 ≤ id.toList.length ∧ id.toList.take 1 ≠ ['l'] := by decide
  have hkinds : ∀ id ∈ layoutIds, ∀ id' ∈ layoutIds, id ≠ id' →
      id.toList.take 7 ≠ id'.toList.take 7 := by decide
  have hlength : ∀ id ∈ layoutIds, 7 ≤ id.toList.length := by decide
  rcases (names_of_diagram h).2 with hid | ⟨hmem, hid⟩ <;>
    rcases (names_of_diagram h').2 with hid' | ⟨hmem', hid'⟩
  · rw [hid, toList_id] at hx
    rw [hid', toList_id] at hx'
    exact hnumber (Markup.eq_of_extends hx hx')
  · rw [hid, toList_id] at hx
    obtain ⟨hlong, hother⟩ := hline _ hmem'
    exact hother (Markup.take_eq_of_extends hx' hx hlong (by simp))
  · rw [hid', toList_id] at hx'
    obtain ⟨hlong, hother⟩ := hline _ hmem
    exact hother (Markup.take_eq_of_extends hx hx' hlong (by simp))
  · exact hkinds _ hmem _ hmem' (hlayout _ hid _ hid')
      (Markup.take_eq_of_extends hx hx' (hlength _ hmem) (hlength _ hmem'))

end Line

/-! ## Cards -/

/-- Nothing in a text opens a tag of the page. -/
theorem less_not_mem_pageText (s : String) : '<' ∉ (pageText s).toList := by
  rw [pageText, String.toList_ofList]
  intro h
  obtain ⟨c, hc, h⟩ := List.mem_flatMap.1 h
  split_ifs at h
  · exact absurd h (by decide)
  · obtain rfl := List.mem_singleton.1 h
    obtain ⟨c, -, hc⟩ := List.mem_flatMap.1 hc
    split_ifs at hc with hless
    · exact absurd hc (by decide)
    · exact hless (List.mem_singleton.1 hc).symm

/-- An error has no attributes but its class. -/
theorem allAttributes_error (s : String) :
    Markup.allAttributes ("<pre class=\"error\">" ++ pageText s ++ "</pre>").toList =
      [("class".toList, "error".toList)] := by
  have hopening : Markup.Unbracketed "pre class=\"error\"".toList := ⟨by decide, by decide⟩
  have hcut : ("<pre class=\"error\">" ++ pageText s ++ "</pre>").toList =
      '<' :: "pre class=\"error\"".toList ++ '>' :: ((pageText s).toList ++ "</pre>".toList) := by
    simp
  rw [hcut, Markup.allAttributes, Markup.tags_tag hopening,
    Markup.tags_append_of_not_mem (less_not_mem_pageText s)]
  decide

theorem cardBody_of_picture {l : Line} {picture : String} (h : l.picture = .ok picture) :
    cardBody l = picture := by rw [cardBody, h]

/-- The ids in a card are made from that of its diagram, and it refers to no others. -/
theorem names_of_card (l : Line) :
    (∀ x ∈ ids (cardBody l).toList, ∃ d, l.diagram = .ok d ∧ Extends d.id.toList x) ∧
      ∀ x ∈ references (cardBody l).toList, x ∈ ids (cardBody l).toList := by
  cases h : l.diagram with
  | ok d =>
    obtain ⟨⟨picture, hpicture, hnames⟩, -⟩ := Line.names_of_diagram h
    rw [cardBody_of_picture hpicture]
    exact ⟨fun x hx => ⟨d, rfl, hnames.under x hx⟩, hnames.closed⟩
  | error e =>
    have hids : Markup.idValues [("class".toList, "error".toList)] = [] := by decide
    have hreferences : ([("class".toList, "error".toList)] : List (List Char × List Char)).flatMap
        (fun a => Markup.valueReferences a.2) = [] := by decide
    simp only [cardBody, Line.picture_of_error h, ids, references, allAttributes_error, hids,
      hreferences]
    exact ⟨nofun, nofun⟩

theorem id_mem_card {l : Line} {id : String} (h : l.layoutId? = some id) :
    id.toList ∈ ids (cardBody l).toList := by
  obtain ⟨picture, hpicture, hmem, -⟩ := Line.picture_of_layoutId h
  rwa [cardBody_of_picture hpicture]

/-! ## Pages -/

/-- Lines stand in the order of their numbers. -/
theorem lines_rising (source : String) :
    (lines source).Pairwise fun l l' => l.number < l'.number := by
  have hrising (texts : List (List Char)) :
      (texts.zipIdx 1).Pairwise fun l l' => l.2 < l'.2 := by
    rw [← List.pairwise_map (f := Prod.snd) (R := (· < ·)), List.zipIdx_map_snd]
    exact List.pairwise_lt_range'
  rw [lines, List.pairwise_map]
  exact (hrising _).filter _

/-- **Whose ids are on a page.**  The diagrams on the page of a sheet have different ids exactly if
no two lines are combinations of one kind, and so it is for two cards to have no id in common.  In
any case a card refers to ids of its own only. -/
theorem gallery_ids_distinct_iff (source : String) :
    ((((lines source).filterMap Line.diagram?).map Diagram.id).Nodup ↔
        ((lines source).filterMap Line.layoutId?).Nodup) ∧
      ((lines source).Pairwise (fun l l' =>
          (ids (cardBody l).toList).Disjoint (ids (cardBody l').toList)) ↔
        ((lines source).filterMap Line.layoutId?).Nodup) ∧
      ∀ l ∈ lines source, ∀ x ∈ references (cardBody l).toList, x ∈ ids (cardBody l).toList := by
  have hrising := lines_rising source
  have hlayouts : ((lines source).filterMap Line.layoutId?).Nodup ↔ (lines source).Pairwise
      fun l l' => ∀ id, l.layoutId? = some id → ∀ id', l'.layoutId? = some id' → id ≠ id' :=
    List.pairwise_filterMap
  have hroots : (((lines source).filterMap Line.diagram?).map Diagram.id).Nodup ↔
      (lines source).Pairwise fun l l' => ∀ id, l.diagram?.map Diagram.id = some id →
        ∀ id', l'.diagram?.map Diagram.id = some id' → id ≠ id' := by
    rw [List.map_filterMap]
    exact List.pairwise_filterMap
  refine ⟨?_, ?_, fun l _ => (names_of_card l).2⟩
  · rw [hroots, hlayouts]
    refine ⟨fun h => h.imp fun hne id hl id' hl' => ?_, fun h => (hrising.and h).imp ?_⟩
    · exact hne id (Line.id_of_layoutId hl) id' (Line.id_of_layoutId hl')
    · intro l l' ⟨hlt, hlayout⟩ id hl id' hl' hids
      obtain ⟨d, hd, rfl⟩ := Option.map_eq_some_iff.1 hl
      obtain ⟨d', hd', rfl⟩ := Option.map_eq_some_iff.1 hl'
      exact Line.apart (Line.diagram?_eq_some hd) (Line.diagram?_eq_some hd') hlt.ne hlayout
        (Extends.refl _) (hids ▸ Extends.refl _)
  · rw [hlayouts]
    refine ⟨fun h => h.imp fun hdisjoint id hl id' hl' hids => ?_, fun h => (hrising.and h).imp ?_⟩
    · exact hdisjoint (id_mem_card hl) (hids ▸ id_mem_card hl')
    · intro l l' ⟨hlt, hlayout⟩ x hx hx'
      obtain ⟨d, hd, hx⟩ := (names_of_card l).1 x hx
      obtain ⟨d', hd', hx'⟩ := (names_of_card l').1 x hx'
      exact Line.apart hd hd' hlt.ne hlayout hx hx'

/-- Two series on one page are drawn under one id. -/
theorem gallery_repeats_series :
    ¬ (((lines "SERIES:incline,beam\nSERIES:beam,incline").filterMap Line.diagram?).map
      Diagram.id).Nodup := by
  have hlines : lines "SERIES:incline,beam\nSERIES:beam,incline" =
      [⟨1, "SERIES:incline,beam"⟩, ⟨2, "SERIES:beam,incline"⟩] := by rfl
  have hfirst : (⟨1, "SERIES:incline,beam"⟩ : Line).layoutId? = some "combo-series" := by
    decide +kernel
  have hsecond : (⟨2, "SERIES:beam,incline"⟩ : Line).layoutId? = some "combo-series" := by
    decide +kernel
  obtain ⟨d, hd, hid⟩ := Option.map_eq_some_iff.1 (Line.id_of_layoutId hfirst)
  obtain ⟨d', hd', hid'⟩ := Option.map_eq_some_iff.1 (Line.id_of_layoutId hsecond)
  rw [hlines, List.filterMap_cons_some hd, List.filterMap_cons_some hd']
  simp [hid, hid']

end FreeBody.Sheet
