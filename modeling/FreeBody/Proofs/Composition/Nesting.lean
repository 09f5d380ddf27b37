import FreeBody.Proofs.Composition.Entries
import FreeBody.Proofs.Preset.Builtin
import Mathlib.Data.List.Forall2

/-!
# Compositions hold the pictures of their entries

The picture of a composition is one well-formed document, and has one group for each diagram that
was placed, in order, with the lines of the diagram's own picture in it (`compose_nests`).  This
is shown for whatever registry, as long as its generators return diagrams that were rendered
(`Registry.Renders`).
-/

namespace FreeBody

open Markup (Node Content NodesFit nodesFit_append nodesFit_iff rootContent classContents
  nodesContents nodesContents_append coordinate flow)
open Text (contentLines)

/-- Whether every diagram from a generator is a picture of this renderer, without background art. -/
def Registry.Renders (r : Registry) : Prop := r.Makes fun _ d => d.IsRendered

/-- Plain diagrams are pictures of this renderer. -/
theorem Registry.Makes.renders {r : Registry} (h : r.Makes Preset.PlainAs) : r.Renders :=
  fun name id args d hd => (h name id args d hd).2.isRendered

namespace Composition

open Drawing (Inner Leads)

/-! ## Children -/

/-- The children of a composition with their places. -/
def placedChildren (r : Registry) (s : Spacing Float) (id : String) (c : Combination) :
    List (Child × Place Float) :=
  let made := children r id 0 c.entries
  made.zip (places s c.layout (made.map fun m => (m.index, m.size)))

theorem entry_of_mem_placedChildren {r : Registry} {s : Spacing Float} {id : String}
    {c : Combination} {cp : Child × Place Float} (h : cp ∈ placedChildren r s id c) :
    c.entries[cp.1.index]? = some cp.1.entry ∧
      runEntry r id cp.1.index cp.1.entry = .ok cp.1.diagram :=
  mem_children_iff.1 (List.of_mem_zip h).1

/-! ## Groups of children -/

/-- Whether a layout scales its diagrams. -/
def scales : Layout → Bool
  | .series | .parallel => false
  | .grid _ | .comparison _ => true

/-- The lines in the group of a child at a place, where `content` is what its picture holds. -/
def groupLines (scaled : Bool) (p : Place Float) (content : List Char) : List (List Char) :=
  if scaled then
    ("<g transform=\"scale(" ++ coordinate p.scale ++ ")\">").toList :: contentLines content ++
      ["</g>".toList]
  else contentLines content

theorem scaleTag_opening (x : Float) :
    Markup.Tag.opening ⟨"g", [("transform", "scale(" ++ coordinate x ++ ")")]⟩ =
      "<g transform=\"scale(" ++ coordinate x ++ ")\">" := by
  have hvalue : Markup.escapeValue ("scale(" ++ coordinate x ++ ")") =
      "scale(" ++ coordinate x ++ ")" := by
    refine Markup.escapeValue_eq_self ?_
    simp (disch := decide) [Markup.valueReserved, Markup.not_mem_coordinate]
  rw [← String.toList_inj]
  simp [Markup.Tag.opening, Markup.attributesText, hvalue]

theorem isPicture_of_shown {c : Shown} (h : c.child.diagram.IsRendered) :
    Drawing.IsPicture c.picture := by
  obtain ⟨markup, hmarkup, hpicture⟩ := h
  obtain rfl := Option.some.inj (hmarkup.symm.trans c.markup)
  exact hpicture

theorem childGroup_fits {c : Shown} (h : c.child.diagram.IsRendered) (scaled : Bool) :
    (childGroup c scaled).Fits Inner := by
  have hcontent : (Node.verbatim (Markup.stripRoot c.picture)).Fits Inner :=
    Drawing.content_stripRoot (isPicture_of_shown h)
  refine ⟨?_, ?_, trivial⟩
  · simp only [Markup.Tag.Fits, List.map]
    decide
  · cases scaled with
    | false => exact hcontent
    | true =>
      refine ⟨?_, hcontent, trivial⟩
      simp only [Markup.Tag.Fits, List.map]
      decide

theorem contentLines_scaleTag (x : Float) :
    contentLines ("<g transform=\"scale(" ++ coordinate x ++ ")\">").toList =
      [("<g transform=\"scale(" ++ coordinate x ++ ")\">").toList] := by
  have hline : '\n' ∉ "g transform=\"scale(".toList ++ (coordinate x).toList ++ [')', '"'] := by
    simp (disch := decide) [Markup.not_mem_coordinate]
  have hlines := Markup.contentLines_bracketed hline
  simpa using hlines

/-- The group of a child is one of the composition, and the child's picture holds no other. -/
theorem contents_childGroup {c : Shown} (h : c.child.diagram.IsRendered) (scaled : Bool) :
    (childGroup c scaled).contents "fbd-composed".toList =
      [groupLines scaled c.place (rootContent c.picture.toList)] := by
  have hclass : ("class".toList, "fbd-composed".toList) ∈ Markup.Tag.pairs ⟨"g", [
      ("id", c.child.diagram.id), ("class", "fbd-composed"),
      ("transform",
        "translate(" ++ coordinate c.place.x ++ ", " ++ coordinate c.place.y ++ ")")]⟩ := by
    have hvalue : Markup.escapeValue "fbd-composed" = "fbd-composed" :=
      Markup.escapeValue_eq_self (by decide)
    simp [Markup.Tag.pairs, hvalue]
  have hcontent : (Node.verbatim (Markup.stripRoot c.picture)).contents
      "fbd-composed".toList = [] := by
    rw [Node.contents, Markup.toList_stripRoot, (Drawing.rootless (isPicture_of_shown h)).contents]
    rfl
  have hflow : flow [.verbatim (Markup.stripRoot c.picture)] =
      contentLines (rootContent c.picture.toList) := by
    rw [Markup.flow_verbatim, Markup.toList_stripRoot]
  rw [childGroup, Node.contents, if_pos hclass, nodesContents, nodesContents, List.append_nil]
  cases scaled with
  | false => rw [if_neg Bool.false_ne_true, hcontent, hflow]; rfl
  | true =>
    have hscale : ("class".toList, "fbd-composed".toList) ∉ Markup.Tag.pairs
        ⟨"g", [("transform", "scale(" ++ coordinate c.place.scale ++ ")")]⟩ := by
      simp [Markup.Tag.pairs]
    have hclosing : contentLines (Markup.Tag.closing ⟨"g",
        [("transform", "scale(" ++ coordinate c.place.scale ++ ")")]⟩).toList =
          ["</g>".toList] := by
      show contentLines "</g>".toList = _
      decide
    rw [if_pos rfl, Node.contents, if_neg hscale, nodesContents, nodesContents, hcontent,
      Markup.flow_group, scaleTag_opening, contentLines_scaleTag, hflow, hclosing]
    rfl

/-! ## The drawing -/

/-- An attribute that makes no group one of a composition. -/
def NotComposed (a : String × String) : Prop := a.1 = "class" → a.2 ≠ "fbd-composed"

theorem contents_of_notComposed {n : Node} (h : n.All NotComposed) :
    n.contents "fbd-composed".toList = [] :=
  h.contents_eq_nil (by decide) fun _ hv => hv rfl

theorem caption_fits (x y : Float) (size fill text : String) {anchor : List (String × String)}
    (hanchor : anchor = [] ∨ anchor = centred) :
    (caption x y size anchor fill text).Fits Inner := by
  rcases hanchor with rfl | rfl
  all_goals
    simp only [caption, centred, Node.Fits, Markup.Tag.Fits, List.map, List.nil_append,
      List.cons_append]
    decide

theorem contents_caption (x y : Float) (size fill text : String)
    {anchor : List (String × String)} (hanchor : anchor = [] ∨ anchor = centred) :
    (caption x y size anchor fill text).contents "fbd-composed".toList = [] := by
  refine contents_of_notComposed ?_
  rcases hanchor with rfl | rfl
  all_goals simp [caption, centred, Node.All, NotComposed]

section

variable (s : Spacing Float) (layout : Layout) (id : String) (count : Nat)

/-- What is drawn for a child fits, and begins with a tag that is no root's. -/
theorem drawChild_fits {c : Shown} (h : c.child.diagram.IsRendered) :
    NodesFit Inner (drawChild s layout id count c) := by
  have hgroup := childGroup_fits h
  unfold drawChild
  cases layout with
  | series =>
    refine ⟨hgroup false, Markup.nodesFit_ite ⟨?_, trivial⟩⟩
    simp only [connector, Node.Fits, Markup.Tag.Fits, List.map]
    decide
  | parallel => exact ⟨hgroup false, caption_fits _ _ _ _ _ (.inl rfl), trivial⟩
  | grid columns =>
    refine ⟨?_, hgroup true, caption_fits _ _ _ _ _ (.inr rfl), trivial⟩
    simp only [cellFrame, Node.Fits, Markup.Tag.Fits, List.map]
    decide
  | comparison title => exact ⟨caption_fits _ _ _ _ _ (.inr rfl), hgroup true, trivial⟩

theorem drawHead_fits : NodesFit Inner (drawHead s layout id count) := by
  unfold drawHead
  split
  · refine Markup.nodesFit_ite ⟨?_, trivial⟩
    simp only [connectorMarker, Node.Fits, NodesFit, Markup.Tag.Fits, List.map]
    decide
  · exact ⟨caption_fits _ _ _ _ _ (.inr rfl), trivial⟩
  · trivial

/-- What is drawn for a child holds its group and no other. -/
theorem contents_drawChild {c : Shown} (h : c.child.diagram.IsRendered) :
    nodesContents "fbd-composed".toList (drawChild s layout id count c) =
      [groupLines (scales layout) c.place (rootContent c.picture.toList)] := by
  have hgroup := contents_childGroup h
  unfold drawChild
  cases layout with
  | series =>
    have hconnector : nodesContents "fbd-composed".toList
        (if c.child.index + 1 < count then [connector id s.gap c] else []) = [] := by
      split
      · have hline : (connector id s.gap c).contents "fbd-composed".toList = [] := by
          refine contents_of_notComposed ?_
          simp [connector, Node.All, NotComposed]
        rw [nodesContents, hline]
        rfl
      · rfl
    rw [nodesContents, hgroup, hconnector]
    rfl
  | parallel =>
    simp only [nodesContents, hgroup, contents_caption _ _ _ _ _ (.inl rfl)]
    rfl
  | grid columns =>
    have hframe : (cellFrame s.gridCell c.place).contents "fbd-composed".toList = [] := by
      refine contents_of_notComposed ?_
      simp [cellFrame, Node.All, NotComposed]
    simp only [nodesContents, hframe, hgroup, contents_caption _ _ _ _ _ (.inr rfl)]
    rfl
  | comparison title =>
    simp only [nodesContents, hgroup, contents_caption _ _ _ _ _ (.inr rfl)]
    rfl

theorem contents_drawHead :
    nodesContents "fbd-composed".toList (drawHead s layout id count) = [] := by
  unfold drawHead
  split
  · split
    · have hmarker : (connectorMarker id).contents "fbd-composed".toList = [] := by
        refine contents_of_notComposed ?_
        simp [connectorMarker, Node.All, Markup.NodesAll, NotComposed]
      rw [nodesContents, hmarker]
      rfl
    · rfl
  · rw [nodesContents, contents_caption _ _ _ _ _ (.inr rfl)]
    rfl
  · rfl

/-- What is drawn begins with a tag that is no root's. -/
theorem drawChild_leads (c : Shown) : Leads (drawChild s layout id count c) := by
  unfold drawChild
  cases layout
  all_goals
    rintro n ⟨⟩
    exact ⟨_, rfl, by simp [Markup.isOther]⟩

theorem drawHead_leads : Leads (drawHead s layout id count) := by
  unfold drawHead
  split
  · split
    · rintro n ⟨⟩
      exact ⟨_, rfl, by simp [Markup.isOther]⟩
    · rintro n ⟨⟩
  · rintro n ⟨⟩
    exact ⟨_, rfl, by simp [Markup.isOther]⟩
  · rintro n ⟨⟩

variable (shown : List Shown)

theorem draw_leads : Leads (draw s layout id count shown) := by
  refine Drawing.leads_append (drawHead_leads s layout id count) ?_
  induction shown with
  | nil => rintro n ⟨⟩
  | cons c shown ih => exact Drawing.leads_append (drawChild_leads s layout id count _) ih

variable {shown} (h : ∀ c ∈ shown, c.child.diagram.IsRendered)

include h

theorem draw_fits : NodesFit Inner (draw s layout id count shown) := by
  refine nodesFit_append.2 ⟨drawHead_fits s layout id count, nodesFit_iff.2 fun n hn => ?_⟩
  obtain ⟨c, hc, hn⟩ := List.mem_flatMap.1 hn
  exact nodesFit_iff.1 (drawChild_fits s layout id count (h c hc)) n hn

/-- The groups in the drawing are those of the children. -/
theorem contents_draw :
    nodesContents "fbd-composed".toList (draw s layout id count shown) =
      shown.map fun c => groupLines (scales layout) c.place (rootContent c.picture.toList) := by
  rw [draw, nodesContents_append, contents_drawHead, List.nil_append]
  induction shown with
  | nil => rfl
  | cons c shown ih =>
    rw [List.forall_mem_cons] at h
    rw [List.flatMap_cons, nodesContents_append, contents_drawChild s layout id count h.1,
      ih h.2, List.map_cons]
    rfl

end

/-! ## Compositions -/

theorem shows_framed (id : String) (size : Size Float) {drawing : List Node}
    (hleads : Leads drawing) : Drawing.Shows (framed id size drawing) drawing :=
  ⟨rfl, rfl, rfl, rfl, rfl, rfl, hleads⟩

/-- The picture that a composition carries is its own rendering. -/
theorem markup_framed_eq_render (id : String) (size : Size Float) (drawing : List Node) :
    (framed id size drawing).markup = (framed id size drawing).render {} := by
  rw [framed, Diagram.markup_finished, Diagram.render_finished, Diagram.markup_of_none rfl]

/-- The picture of a composition is the one that shows its drawing. -/
theorem markup_framed (id : String) (size : Size Float) {drawing : List Node}
    (hleads : Leads drawing) : (framed id size drawing).markup =
      some (Drawing.picture {} (framed id size drawing) []).text := by
  rw [markup_framed_eq_render, Drawing.render_of_shows {} (shows_framed id size hleads)]

/-- A composition is a diagram that shows its drawing. -/
theorem exists_of_compose {r : Registry} {s : Spacing Float} {id : String} {c : Combination}
    {d : Diagram} (h : (compose r s id c).diagram = some d) :
    ∃ (size : Size Float) (shown : List Shown),
      placedChildren r s id c = shown.map Shown.placed ∧
        d = framed id size (draw s c.layout id c.entries.length shown) := by
  obtain ⟨shown, hshown, rfl⟩ := Option.map_eq_some_iff.1 h
  exact ⟨_, shown, mapM_show?_eq_some_iff.1 hshown, rfl⟩

/-- There is a composition if the picture of every child is finished. -/
theorem isSome_compose_iff {r : Registry} {s : Spacing Float} {id : String} {c : Combination} :
    (compose r s id c).diagram.isSome = true ↔
      ∀ cp ∈ placedChildren r s id c, cp.1.diagram.markup.isSome = true := by
  simp only [← isSome_show?_iff, ← isSome_mapM_iff]
  rw [compose, Option.isSome_map]
  rfl

theorem placements_compose (r : Registry) (s : Spacing Float) (id : String) (c : Combination) :
    (compose r s id c).placements = (placedChildren r s id c).map fun cp =>
      ⟨cp.1.index, cp.1.entry.preset, cp.2⟩ := rfl

section

variable {r : Registry} (hr : r.Renders) (s : Spacing Float) (id : String) (c : Combination)

include hr

theorem placedChildren_rendered : ∀ cp ∈ placedChildren r s id c, cp.1.diagram.IsRendered :=
  fun _ hcp => hr _ _ _ _ (runEntry_eq_ok_iff.1 (entry_of_mem_placedChildren hcp).2)

/-- Rendered diagrams make a composition, and its picture is one that shows their drawing. -/
theorem exists_picture_compose : ∃ (size : Size Float) (shown : List Shown),
    placedChildren r s id c = shown.map Shown.placed ∧
      let drawing := draw s c.layout id c.entries.length shown
      let d := framed id size drawing
      (compose r s id c).diagram.bind Diagram.markup = some (Drawing.picture {} d []).text ∧
        Drawing.Shows d drawing ∧ NodesFit Inner drawing := by
  have hrendered := placedChildren_rendered hr s id c
  have hexists : (compose r s id c).diagram.isSome = true := by
    refine isSome_compose_iff.2 fun cp hcp => ?_
    obtain ⟨picture, hpicture, -⟩ := hrendered cp hcp
    exact Option.isSome_iff_exists.2 ⟨picture, hpicture⟩
  obtain ⟨d, hd⟩ := Option.isSome_iff_exists.1 hexists
  obtain ⟨size, shown, hplaced, rfl⟩ := exists_of_compose hd
  rw [hplaced, List.forall_mem_map] at hrendered
  have hleads := draw_leads s c.layout id c.entries.length shown
  refine ⟨size, shown, hplaced, ?_, shows_framed id size hleads,
    draw_fits s c.layout id c.entries.length hrendered⟩
  rw [hd, Option.bind_some, markup_framed id size hleads]

end

/-- **A composition nests the pictures of its entries.**  There is one, and its markup is one root
element, without another root in it, and the end of a line.  It has one group for each placement, in
order, and the lines of the group are those of the picture that the entry gives, without its
root. -/
theorem compose_nests (r : Registry) (hr : r.Renders) (s : Spacing Float) (id : String)
    (c : Combination) :
    ∃ picture, (compose r s id c).diagram.bind Diagram.markup = some picture ∧
      (∃ markup, picture.toList = markup ++ ['\n'] ∧
        Markup.Element Inner "svg".toList markup) ∧
      List.Forall₂ (fun p content => ∃ e d picture, c.entries[p.index]? = some e ∧
          p.preset = e.preset ∧ runEntry r id p.index e = .ok d ∧ d.markup = some picture ∧
          contentLines content =
            groupLines (scales c.layout) p.place (rootContent picture.toList))
        (compose r s id c).placements
        (classContents "fbd-composed".toList picture.toList) := by
  obtain ⟨size, shown, hplaced, hpicture, hshows, hfits⟩ := exists_picture_compose hr s id c
  have hrendered := placedChildren_rendered hr s id c
  have hentries : ∀ cp ∈ placedChildren r s id c, c.entries[cp.1.index]? = some cp.1.entry ∧
      runEntry r id cp.1.index cp.1.entry = .ok cp.1.diagram := fun cp hcp =>
    entry_of_mem_placedChildren hcp
  rw [hplaced, List.forall_mem_map] at hrendered hentries
  refine ⟨_, hpicture,
    (Drawing.picture_isRoot_of_shows {} hshows hfits).text (by decide), ?_⟩
  have hdraw := contents_draw s c.layout id c.entries.length hrendered
  have hcontents := (Drawing.contents_of_shows {} hshows hfits).trans hdraw
  rw [placements_compose, hplaced, List.map_map, List.forall₂_map_left_iff]
  have hlines : List.Forall₂ Eq (List.map contentLines _) (List.map _ _) :=
    List.forall₂_eq_eq_eq ▸ hcontents
  rw [List.forall₂_map_left_iff, List.forall₂_map_right_iff] at hlines
  refine ((List.forall₂_and_left _ _).2 ⟨hentries, hlines.flip⟩).imp ?_
  rintro sh content ⟨⟨hentry, hrun⟩, hcontent⟩
  exact ⟨sh.child.entry, sh.child.diagram, sh.picture, hentry, rfl, hrun, sh.markup, hcontent⟩

/-- A comparison whose strings are pieces of markup, with an entry that has no diagram. -/
def hostileComparison : Combination where
  layout := .comparison (some "</svg><svg class=\"fbd-composed\">")
  entries := [
    { preset := "incline", label := some "]]></text><g class=\"fbd-composed\">" },
    { preset := "<svg/>" },
    { preset := "beam", args := [.number 300], label := some "&\n</g>" }]

theorem compose_nests_hostile : Registry.builtin.Renders ∧
    ∃ picture, (compose .builtin .usual "\"/></svg>" hostileComparison).diagram.bind
        Diagram.markup = some picture ∧
      (∃ markup, picture.toList = markup ++ ['\n'] ∧
        Markup.Element Inner "svg".toList markup) ∧
      List.Forall₂ (fun p content => ∃ e d picture,
          hostileComparison.entries[p.index]? = some e ∧ p.preset = e.preset ∧
          runEntry .builtin "\"/></svg>" p.index e = .ok d ∧ d.markup = some picture ∧
          contentLines content =
            groupLines (scales hostileComparison.layout) p.place (rootContent picture.toList))
        (compose .builtin .usual "\"/></svg>" hostileComparison).placements
        (classContents "fbd-composed".toList picture.toList) :=
  ⟨Registry.builtin_plain.renders,
    compose_nests .builtin Registry.builtin_plain.renders .usual "\"/></svg>" hostileComparison⟩

end Composition

end FreeBody
