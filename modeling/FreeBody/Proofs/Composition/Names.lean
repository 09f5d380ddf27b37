import FreeBody.Proofs.Composition.Nesting
import FreeBody.Proofs.Drawing.Names

/-!
# Names in compositions

The picture of a composition has the ids of any picture, the id of the marker of its connectors if
it draws any, and for every child the ids of a picture under the child's own name.  The names of
children are told apart by their numbers, and from all others by having one, so no two elements
have the same id; and everything that is referred to is there (`compose_namesUnder`).

This is shown for registries whose generators make plain diagrams under the id that they are asked
for (`Preset.PlainAs`).
-/

namespace FreeBody.Composition

open Markup (Node Reads NodesRead Tame Extends NamesUnder nodesAttributes idValues allAttributes
  coordinate)
open Drawing (definitionIds pictureIds definitionIds_subset pictureIds_eq)
open Preset (PlainAs)

theorem isId_childId {id : String} (h : IsId id) (index : Nat) : IsId (childId id index) :=
  (h.append (by decide)).append (isId_toString index)

theorem isId_connectorId {id : String} (h : IsId id) : IsId (connectorId id) := h.append (by decide)

/-! ## Groups of children -/

theorem render_of_shown {c : Shown} (h : c.child.diagram.Plain) :
    c.child.diagram.render {} = some c.picture := h.markup.symm.trans c.markup

/-- The group of a child has the ids of its picture. -/
theorem childGroup_reads {c : Shown} (h : c.child.diagram.Plain) (hid : IsId c.child.diagram.id)
    (scaled : Bool) : (childGroup c scaled).Reads (pictureIds c.child.diagram.id)
      (definitionIds c.child.diagram.id) := by
  have hcontent : (Node.verbatim (Markup.stripRoot c.picture)).Reads
      (definitionIds c.child.diagram.id) (definitionIds c.child.diagram.id) := by
    refine Node.reads_verbatim
      (Drawing.content_stripRoot (isPicture_of_shown h.isRendered)) ?_
    rw [Markup.toList_stripRoot]
    exact Drawing.rootContent_reads h.unstyled hid (render_of_shown h)
  have hgroup : Reads [c.child.diagram.id.toList] (definitionIds c.child.diagram.id)
      (Markup.Tag.pairs ⟨"g", [
        ("id", c.child.diagram.id),
        ("class", "fbd-composed"),
        ("transform",
          "translate(" ++ coordinate c.place.x ++ ", " ++ coordinate c.place.y ++ ")")]⟩) := by
    have hspecial : ∀ b ∈ [("id", c.child.diagram.id)],
        Tame (definitionIds c.child.diagram.id) b := by
      simpa using hid.tame
    refine tag_reads hspecial ?_ ?_
    · simp (disch := decide) [Drawing.harmless_iff, Markup.not_mem_coordinate]
    · simp [Markup.Tag.pairs, idValues, hid.escapeValue_eq]
  refine Node.reads_group hgroup (.singleton ?_)
  cases scaled with
  | false => exact hcontent
  | true =>
    have hscale : Reads [] (definitionIds c.child.diagram.id) (Markup.Tag.pairs ⟨"g", [
        ("transform", "scale(" ++ coordinate c.place.scale ++ ")")]⟩) := by
      refine tag_reads (List.forall_mem_nil _) ?_ ?_
      · simp (disch := decide) [Drawing.harmless_iff, Markup.not_mem_coordinate]
      · simp [Markup.Tag.pairs, idValues]
    exact Node.reads_group hscale (.singleton hcontent)

/-! ## Captions, frames and connectors -/

section

variable {known : List (List Char)}

/-- The colours in a composition. -/
theorem colors_tame (k : String) :
    ∀ v ∈ ["#666", "#333", "#2563eb", "#f9fafb", "#e5e7eb"], Tame known (k, v) := by
  have hquiet : ∀ v ∈ ["#666", "#333", "#2563eb", "#f9fafb", "#e5e7eb"],
      Markup.valueReferences (Markup.escapeValue v).toList = [] ∧
        '\n' ∉ (Markup.escapeValue v).toList := by
    simp only [Markup.escapeValue_eq]
    decide
  exact fun v hv => tame_of_quiet (hquiet v hv)

theorem caption_reads (x y : Float) {size fill : String} (text : String)
    {anchor : List (String × String)} (hanchor : anchor = [] ∨ anchor = centred)
    (hsize : Drawing.Harmless size) (hfill : Tame known ("fill", fill)) :
    (caption x y size anchor fill text).Reads [] known := by
  have hspecial : ∀ b ∈ [("fill", fill)], Tame known b := by simpa using hfill
  have hsize' := Drawing.harmless_iff.1 hsize
  refine nameless_reads hspecial ?_
  rcases hanchor with rfl | rfl
  all_goals
    simp (disch := decide) [caption, centred, Node.All, Drawing.harmless_iff,
      Markup.not_mem_coordinate, hsize']

theorem cellFrame_reads (cell : Size Float) (p : Place Float) :
    (cellFrame cell p).Reads [] known := by
  have hspecial : ∀ b ∈ [("fill", "#f9fafb"), ("stroke", "#e5e7eb")], Tame known b := by
    simp [colors_tame]
  refine nameless_reads hspecial ?_
  simp (disch := decide) [cellFrame, Node.All, Drawing.harmless_iff, Markup.not_mem_coordinate]

variable {id : String} (hid : IsId id)

include hid

theorem connectorMarker_reads : (connectorMarker id).Reads [(connectorId id).toList] known := by
  have hconnector := isId_connectorId hid
  have hspecial : ∀ b ∈ [("id", connectorId id), ("fill", "#666")], Tame known b := by
    simp [colors_tame, hconnector.tame]
  refine tree_reads hspecial ?_ ?_
  · simp [connectorMarker, Node.All, Markup.NodesAll, Drawing.harmless_iff]
  · simp [connectorMarker, Node.attributes, nodesAttributes, Markup.Tag.pairs, idValues,
      hconnector.escapeValue_eq]

theorem connector_reads (hknown : (connectorId id).toList ∈ known) (gap : Float) (c : Shown) :
    (connector id gap c).Reads [] known := by
  have hspecial : ∀ b ∈ [("stroke", "#666"), ("marker-end", reference (connectorId id))],
      Tame known b := by
    simp [colors_tame, (isId_connectorId hid).tame_reference hknown]
  refine nameless_reads hspecial ?_
  simp (disch := decide) [connector, Node.All, Drawing.harmless_iff, Markup.not_mem_coordinate]

end

/-! ## The drawing -/

/-- The ids of what is drawn before the children. -/
def headIds (layout : Layout) (id : String) (count : Nat) : List (List Char) :=
  match layout with
  | .series => if 1 < count then [(connectorId id).toList] else []
  | _ => []

section

variable (s : Spacing Float) (layout : Layout) {id : String} (hid : IsId id) (count : Nat)
  {known : List (List Char)}

include hid

theorem drawHead_read : NodesRead (headIds layout id count) known (drawHead s layout id count) := by
  cases layout with
  | series =>
    simp only [drawHead, headIds]
    split
    · exact .singleton (connectorMarker_reads hid)
    · exact .nil
  | parallel => exact .nil
  | grid columns => exact .nil
  | comparison title =>
    cases title with
    | none => exact .nil
    | some title =>
      exact .singleton (caption_reads _ _ _ (.inr rfl) (by decide) (colors_tame _ _ (by simp)))

/-- What is drawn for a child has the ids of its picture.  A connector refers to the marker in the
head, which is there whenever there are two children. -/
theorem drawChild_read {c : Shown} (h : c.child.diagram.Plain) (hchild : IsId c.child.diagram.id)
    (hhead : headIds layout id count ⊆ known)
    (hdefinitions : definitionIds c.child.diagram.id ⊆ known) :
    NodesRead (pictureIds c.child.diagram.id) known (drawChild s layout id count c) := by
  have hgroup (scaled : Bool) : (childGroup c scaled).Reads (pictureIds c.child.diagram.id) known :=
    (childGroup_reads h hchild scaled).mono hdefinitions
  cases layout with
  | series =>
    have hconnector : NodesRead [] known
        (if c.child.index + 1 < count then [connector id s.gap c] else []) := by
      split
      next hnext =>
        have hmarker : (connectorId id).toList ∈ headIds .series id count := by
          rw [headIds, if_pos (by omega)]
          exact List.mem_singleton_self _
        exact .singleton (connector_reads hid (hhead hmarker) _ _)
      next => exact .nil
    have hdrawn := NodesRead.cons (hgroup false) hconnector
    rwa [List.append_nil] at hdrawn
  | parallel =>
    have hcaption : NodesRead [] known [caption 20 (c.place.y + c.child.diagram.height / 2) "14" []
        "#666" (toString (c.child.index + 1))] :=
      .singleton (caption_reads _ _ _ (.inl rfl) (by decide) (colors_tame _ _ (by simp)))
    have hdrawn := NodesRead.cons (hgroup false) hcaption
    rwa [List.append_nil] at hdrawn
  | grid columns =>
    have hcaption : NodesRead [] known [caption (c.place.x + s.gridCell.width / 2)
        (c.place.y + s.gridCell.height + 30) "14" centred "#333" c.child.entry.caption] :=
      .singleton (caption_reads _ _ _ (.inr rfl) (by decide) (colors_tame _ _ (by simp)))
    have hdrawn := NodesRead.cons (cellFrame_reads s.gridCell c.place)
      (NodesRead.cons (hgroup true) hcaption)
    rwa [List.append_nil] at hdrawn
  | comparison title =>
    have hcaption : (caption (c.place.x + s.compareWidth / 2) 70 "16" centred "#2563eb"
        c.child.entry.caption).Reads [] known :=
      caption_reads _ _ _ (.inr rfl) (by decide) (colors_tame _ _ (by simp))
    exact NodesRead.cons hcaption (.singleton (hgroup true))

/-- The ids of the children that were placed. -/
def childIds (id : String) (placed : List (Child × Place Float)) : List (List Char) :=
  placed.flatMap fun cp => pictureIds (childId id cp.1.index)

/-- **Names in a drawing.** -/
theorem draw_read {shown : List Shown}
    (h : ∀ c ∈ shown, PlainAs (childId id c.child.index) c.child.diagram) :
    NodesRead (headIds layout id count ++ childIds id (shown.map Shown.placed))
      (headIds layout id count ++ childIds id (shown.map Shown.placed))
      (draw s layout id count shown) := by
  refine (drawHead_read s layout hid count).append ?_
  have hhead := List.subset_append_left (headIds layout id count)
    (childIds id (shown.map Shown.placed))
  have hchildren : ∀ c ∈ shown, pictureIds (childId id c.child.index) ⊆
      headIds layout id count ++ childIds id (shown.map Shown.placed) := fun c hc x hx =>
    List.mem_append_right _ (List.mem_flatMap.2 ⟨_, List.mem_map_of_mem hc, hx⟩)
  generalize headIds layout id count ++ childIds id (shown.map Shown.placed) = known
    at hhead hchildren
  induction shown with
  | nil => exact .nil
  | cons c shown ih =>
    rw [List.forall_mem_cons] at h hchildren
    obtain ⟨hid', hplain⟩ := h.1
    have hchild : IsId c.child.diagram.id := hid' ▸ isId_childId hid _
    have hdefinitions : definitionIds c.child.diagram.id ⊆ known := by
      rw [hid']
      exact List.Subset.trans (definitionIds_subset _) hchildren.1
    have hdrawn := drawChild_read s layout hid count hplain hchild hhead hdefinitions
    rw [hid'] at hdrawn
    exact hdrawn.append (ih h.2 hchildren.2)

end

/-! ## Distinctness -/

theorem pairwise_zip {α β : Type} {R : α → α → Prop} {xs : List α} (h : xs.Pairwise R)
    (ys : List β) : (xs.zip ys).Pairwise fun p q => R p.1 q.1 := by
  induction h generalizing ys with
  | nil => exact .nil
  | @cons x xs hx _ ih =>
    cases ys with
    | nil => exact .nil
    | cons y ys => exact List.pairwise_cons.2 ⟨fun p hp => hx p.1 (List.of_mem_zip hp).1, ih ys⟩

theorem placedChildren_rising (r : Registry) (s : Spacing Float) (id : String) (c : Combination) :
    (placedChildren r s id c).Pairwise fun p q => p.1.index < q.1.index :=
  pairwise_zip (children_rising r id 0 c.entries) _

section

variable {id : String} {x : List Char}

/-- The names of a child extend its number. -/
theorem extends_of_mem_childPicture {index : Nat} (h : x ∈ pictureIds (childId id index)) :
    Extends (id.toList ++ ['-'] ++ Decimal.digits index) x := by
  have hname : (childId id index).toList = id.toList ++ ['-'] ++ Decimal.digits index := by
    rw [childId, String.toList_append, String.toList_append, Decimal.toList_toString]
    rfl
  exact hname ▸ Drawing.extends_of_mem_pictureIds h

/-- The children of a composition have no names in common. -/
theorem childIds_nodup {placed : List (Child × Place Float)}
    (h : placed.Pairwise fun p q => p.1.index < q.1.index) : (childIds id placed).Nodup := by
  refine List.nodup_flatMap.2 ⟨fun cp _ => Drawing.pictureIds_nodup _, h.imp ?_⟩
  intro p q hlt x hp hq
  have heq := Markup.eq_of_extends (extends_of_mem_childPicture hp) (extends_of_mem_childPicture hq)
  omega

/-- What the names in a composition have behind its own, unless they are those of a child. -/
def ownEndings : List (List Char) := Drawing.pictureEndings ++ ["-series-arrow".toList]

theorem ownEndings_no_digit : ∀ e ∈ ownEndings, ∀ c ∈ e, Decimal.isDigit c = false := by decide

theorem ownIds_sublist (layout : Layout) (id : String) (count : Nat) :
    (pictureIds id ++ headIds layout id count).Sublist (ownEndings.map (id.toList ++ ·)) := by
  have hhead : (headIds layout id count).Sublist [(connectorId id).toList] := by
    unfold headIds
    split
    · split
      · exact List.Sublist.refl _
      · exact List.nil_sublist _
    · exact List.nil_sublist _
  rw [ownEndings, List.map_append, pictureIds_eq]
  refine (List.Sublist.refl _).append ?_
  simpa [connectorId] using hhead

/-- A child's name is none of the composition's own: those have no digits behind `id`. -/
theorem ownIds_disjoint (layout : Layout) (count : Nat) (placed : List (Child × Place Float)) :
    (pictureIds id ++ headIds layout id count).Disjoint (childIds id placed) := by
  intro x hown hchild
  obtain ⟨ending, hending, rfl⟩ := List.mem_map.1 ((ownIds_sublist layout id count).subset hown)
  obtain ⟨cp, -, hx⟩ := List.mem_flatMap.1 hchild
  obtain ⟨more, heq, -⟩ := extends_of_mem_childPicture hx
  rw [List.append_assoc, List.append_assoc, List.append_cancel_left_eq] at heq
  obtain ⟨digit, ds, hdigits⟩ :=
    List.exists_cons_of_ne_nil (Decimal.digits_ne_nil cp.1.index)
  have hdigit : Decimal.isDigit digit = true :=
    Decimal.isDigit_of_mem_digits (n := cp.1.index) (by simp [hdigits])
  have hmem : digit ∈ ending := by simp [heq, hdigits]
  rw [ownEndings_no_digit ending hending digit hmem] at hdigit
  cases hdigit

theorem ownIds_nodup (layout : Layout) (id : String) (count : Nat) :
    (pictureIds id ++ headIds layout id count).Nodup :=
  (List.Nodup.map (List.append_right_injective _) (by decide)).sublist
    (ownIds_sublist layout id count)

theorem extends_of_mem_own {layout : Layout} {count : Nat}
    (h : x ∈ pictureIds id ++ headIds layout id count) : Extends id.toList x := by
  obtain ⟨ending, hending, rfl⟩ := List.mem_map.1 ((ownIds_sublist layout id count).subset h)
  exact ⟨ending, rfl, fun c hc => ownEndings_no_digit ending hending c (List.mem_of_mem_head? hc)⟩

theorem extends_of_mem_child {placed : List (Child × Place Float)} (h : x ∈ childIds id placed) :
    Extends id.toList x := by
  obtain ⟨cp, -, hx⟩ := List.mem_flatMap.1 h
  obtain ⟨ending, rfl, -⟩ := extends_of_mem_childPicture hx
  refine ⟨'-' :: (Decimal.digits cp.1.index ++ ending), ?_, Text.stops_cons_iff.2 (by decide)⟩
  simp only [List.append_assoc, List.cons_append, List.nil_append]

end

/-! ## Compositions -/

theorem framed_unstyled (id : String) (size : Size Float) (drawing : List Node) :
    { framed id size drawing with backgroundMarkup := none }.Unstyled where
  art := rfl
  color := rfl
  points := fun _ hp => absurd hp List.not_mem_nil
  forces := fun _ hf => absurd hf List.not_mem_nil
  moments := rfl
  bodies := fun _ hb => absurd hb List.not_mem_nil

section

variable {r : Registry} (hr : r.Makes PlainAs) (s : Spacing Float) {id : String} (c : Combination)

include hr

theorem placedChildren_plainAs : ∀ cp ∈ placedChildren r s id c,
    PlainAs (childId id cp.1.index) cp.1.diagram := fun _ hcp =>
  hr _ _ _ _ (runEntry_eq_ok_iff.1 (entry_of_mem_placedChildren hcp).2)

variable (hid : IsId id)

include hid

/-- The ids in a composition are its own, that of the marker of its connectors, and those of its
children. -/
theorem compose_reads : ∃ picture, (compose r s id c).diagram.bind Diagram.markup = some picture ∧
    Reads (pictureIds id ++ (headIds c.layout id c.entries.length ++
        childIds id (placedChildren r s id c)))
      (definitionIds id ++ (headIds c.layout id c.entries.length ++
        childIds id (placedChildren r s id c)))
      (allAttributes picture.toList) := by
  obtain ⟨size, shown, hplaced, hpicture, hshows, hfits⟩ :=
    exists_picture_compose hr.renders s id c
  have hplain : ∀ cp ∈ placedChildren r s id c, _ := placedChildren_plainAs hr s c
  rw [hplaced, List.forall_mem_map] at hplain
  have hread := draw_read s c.layout hid c.entries.length hplain
  refine ⟨_, hpicture, ?_⟩
  rw [hplaced]
  exact Drawing.shows_reads hfits hread (framed_unstyled id size _) hid hshows

/-- **Names in compositions.**  There is a picture, its root has the id of the composition, all ids
are distinct and made from that one, and what is referred to is among them. -/
theorem compose_namesUnder :
    ∃ picture, (compose r s id c).diagram.bind Diagram.markup = some picture ∧
      id.toList ∈ Markup.ids picture.toList ∧ NamesUnder id.toList picture.toList := by
  obtain ⟨picture, hpicture, hreads⟩ := compose_reads hr s c hid
  have hids : Markup.ids picture.toList = _ := hreads.ids
  refine ⟨picture, hpicture, hids ▸ List.mem_append_left _ List.mem_cons_self,
    hreads.namesUnder ?_ ?_ ?_⟩
  · exact List.append_subset.2 ⟨List.subset_append_of_subset_left _ (definitionIds_subset id),
      List.subset_append_right _ _⟩
  · rw [← List.append_assoc]
    exact (ownIds_nodup _ _ _).append (childIds_nodup (placedChildren_rising r s id c))
      (ownIds_disjoint _ _ _)
  · intro x hx
    rw [← List.append_assoc, List.mem_append] at hx
    rcases hx with hx | hx
    · exact extends_of_mem_own hx
    · exact extends_of_mem_child hx

end

end FreeBody.Composition
