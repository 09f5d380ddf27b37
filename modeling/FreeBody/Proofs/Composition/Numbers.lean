import FreeBody.Proofs.Composition.Names
import FreeBody.Proofs.Drawing.Numbers

/-!
# Numbers in compositions

The picture of a composition is made of coordinates, a few numbers that are written out, and the
pictures of its children, so every attribute in it that holds numbers is a datum of its kind
(`compose_measured`).  With that of any picture, and with what a coordinate is, this tells which
numbers are written plainly: all but those that are too large.
-/

namespace FreeBody.Composition

open Markup (Node NodesAll nodesAttributes allAttributes coordinate Numbers IsPlain IsNumber
  IsWritten TooLarge Measured ReadMeasured Legible opposite measured_of_none measured_of_some
  measured_of_literal isWritten_coordinate mem_nodesAttributes)
open Preset (PlainAs)

/-! ## Groups of children -/

theorem measured_translation (x y : Float) :
    Measured ("transform", "translate(" ++ coordinate x ++ ", " ++ coordinate y ++ ")") := by
  have hpair := Markup.numbers_pair (by decide : [',', ' '] ∈ Markup.separators) x y
  refine measured_of_some (d := .transformation) (by decide) ⟨"translate", 2, _, ?_, by decide,
    hpair⟩
  simp

theorem measured_scale (x : Float) : Measured ("transform", "scale(" ++ coordinate x ++ ")") := by
  refine measured_of_some (d := .transformation) (by decide) ⟨"scale", 1, _, ?_, by decide,
    .one (isWritten_coordinate x)⟩
  simp

theorem childGroup_measured {c : Shown} (h : c.child.diagram.Plain) (hid : IsId c.child.diagram.id)
    (scaled : Bool) : ∀ a ∈ (childGroup c scaled).attributes, ReadMeasured a := by
  have hcontent : ∀ a ∈ (Node.verbatim (Markup.stripRoot c.picture)).attributes,
      ReadMeasured a := by
    rw [Node.attributes, Markup.toList_stripRoot]
    exact Drawing.rootContent_measured h.unstyled hid (render_of_shown h)
  have hgroup : ∀ a ∈ Markup.Tag.pairs ⟨"g", [
      ("id", c.child.diagram.id),
      ("class", "fbd-composed"),
      ("transform",
        "translate(" ++ coordinate c.place.x ++ ", " ++ coordinate c.place.y ++ ")")]⟩,
      ReadMeasured a := by
    refine Markup.Tag.readMeasured ?_
    simp (disch := decide) [measured_of_none, measured_translation]
  rw [childGroup, Node.attributes, List.forall_mem_append]
  refine ⟨hgroup, ?_⟩
  rw [nodesAttributes, nodesAttributes, List.append_nil]
  cases scaled with
  | false => exact hcontent
  | true =>
    have hscale : ∀ a ∈ Markup.Tag.pairs ⟨"g", [
        ("transform", "scale(" ++ coordinate c.place.scale ++ ")")]⟩, ReadMeasured a :=
      Markup.Tag.readMeasured (List.forall_mem_singleton.2 (measured_scale c.place.scale))
    rw [if_pos rfl, Node.attributes, nodesAttributes, nodesAttributes, List.append_nil]
    exact List.forall_mem_append.2 ⟨hscale, hcontent⟩

/-! ## Captions, frames and connectors -/

theorem caption_measured (x y : Float) {size : String} (fill text : String)
    {anchor : List (String × String)} (hanchor : anchor = [] ∨ anchor = centred)
    (hsize : IsWritten size.toList) : (caption x y size anchor fill text).All Measured := by
  have hsize' : Measured ("font-size", size) :=
    measured_of_some (d := .size) (by decide) (Or.inl hsize)
  rcases hanchor with rfl | rfl
  all_goals
    simp (disch := decide) [caption, centred, Node.All, measured_of_none, hsize']

theorem cellFrame_measured (cell : Size Float) (p : Place Float) :
    (cellFrame cell p).All Measured := by
  simp (disch := decide) [cellFrame, Node.All, measured_of_none, measured_of_literal]

theorem connectorMarker_measured (id : String) : (connectorMarker id).All Measured := by
  have hhead : Measured ("points", "0 0, 10 3, 0 6") := by
    have hnumbers : Numbers IsWritten 6 (['0'] ++ ([' '] ++ (['0'] ++ ([',', ' '] ++ (['1', '0'] ++
        ([' '] ++ (['3'] ++ ([',', ' '] ++ (['0'] ++ ([' '] ++ ['6'])))))))))) :=
      .cons (by decide) (by decide) (.cons (by decide) (by decide) (.cons (by decide) (by decide)
        (.cons (by decide) (by decide) (.cons (by decide) (by decide) (.one (by decide))))))
    exact measured_of_some (d := .corners) (by decide) ⟨3, hnumbers⟩
  simp (disch := decide) [connectorMarker, Node.All, NodesAll, measured_of_none,
    measured_of_literal, hhead]

theorem connector_measured (id : String) (gap : Float) (c : Shown) :
    (connector id gap c).All Measured := by
  simp (disch := decide) [connector, Node.All, measured_of_none, measured_of_literal]

/-! ## The drawing -/

section

variable (s : Spacing Float) (layout : Layout) (id : String) (count : Nat)

theorem drawHead_measured : NodesAll Measured (drawHead s layout id count) := by
  cases layout with
  | series =>
    simp only [drawHead]
    split
    · exact ⟨connectorMarker_measured id, trivial⟩
    · trivial
  | parallel => trivial
  | grid columns => trivial
  | comparison title =>
    cases title with
    | none => trivial
    | some title => exact ⟨caption_measured _ _ _ _ (.inr rfl) (by decide), trivial⟩

theorem drawChild_measured {c : Shown} (h : c.child.diagram.Plain)
    (hid : IsId c.child.diagram.id) :
    ∀ n ∈ drawChild s layout id count c, ∀ a ∈ n.attributes, ReadMeasured a := by
  have hgroup := childGroup_measured h hid
  have hcaption (x y : Float) {size : String} (fill text : String)
      (hsize : IsWritten size.toList) :=
    (caption_measured x y fill text (.inr rfl) hsize).readMeasured
  cases layout with
  | series =>
    refine List.forall_mem_cons.2 ⟨hgroup false, ?_⟩
    split
    · exact List.forall_mem_singleton.2 (connector_measured id _ c).readMeasured
    · exact List.forall_mem_nil _
  | parallel =>
    exact List.forall_mem_cons.2 ⟨hgroup false, List.forall_mem_singleton.2
      (caption_measured _ _ _ _ (.inl rfl) (by decide)).readMeasured⟩
  | grid columns =>
    exact List.forall_mem_cons.2 ⟨(cellFrame_measured _ c.place).readMeasured, List.forall_mem_cons.2
      ⟨hgroup true, List.forall_mem_singleton.2 (hcaption _ _ _ _ (by decide))⟩⟩
  | comparison title =>
    exact List.forall_mem_cons.2 ⟨hcaption _ _ _ _ (by decide),
      List.forall_mem_singleton.2 (hgroup true)⟩

theorem draw_measured {shown : List Shown}
    (h : ∀ c ∈ shown, c.child.diagram.Plain ∧ IsId c.child.diagram.id) :
    ∀ a ∈ nodesAttributes (draw s layout id count shown), ReadMeasured a := by
  rw [draw, Markup.nodesAttributes_append, List.forall_mem_append]
  refine ⟨(drawHead_measured s layout id count).readMeasured, fun a ha => ?_⟩
  obtain ⟨n, hn, ha⟩ := mem_nodesAttributes.1 ha
  obtain ⟨c, hc, hn⟩ := List.mem_flatMap.1 hn
  exact drawChild_measured s layout id count (h c hc).1 (h c hc).2 n hn a ha

end

/-! ## Compositions -/

/-- **Numbers in compositions.** -/
theorem compose_measured {r : Registry} (hr : r.Makes PlainAs) (s : Spacing Float) {id : String}
    (hid : IsId id) (c : Combination) :
    ∃ picture, (compose r s id c).diagram.bind Diagram.markup = some picture ∧
      ∀ a ∈ allAttributes picture.toList, ReadMeasured a := by
  obtain ⟨size, shown, hplaced, hpicture, hshows, hfits⟩ :=
    exists_picture_compose hr.renders s id c
  have hplain : ∀ cp ∈ placedChildren r s id c, _ := placedChildren_plainAs hr s c
  rw [hplaced, List.forall_mem_map] at hplain
  have hread := draw_read s c.layout hid c.entries.length hplain
  have hdrawn := draw_measured s c.layout id c.entries.length fun sh hsh =>
    ⟨(hplain sh hsh).2, (hplain sh hsh).1 ▸ isId_childId hid sh.child.index⟩
  exact ⟨_, hpicture,
    Drawing.shows_measured hfits hread hdrawn (framed_unstyled id size _) hid hshows⟩

/-- **Which numbers are plain.**  A number is written as a plain decimal, and as a number at all,
exactly if it is not too large, and with its sign turned it is written with the sign turned.  The
numbers in all pictures and compositions are written so. -/
theorem plain_numbers_iff (x : Float) (style : Style) {d : Diagram} (hd : d.backgroundMarkup = none)
    {r : Registry} (hr : r.Makes PlainAs) (s : Spacing Float) {id : String} (hid : IsId id)
    (c : Combination) :
    (IsWritten (coordinate x).toList ∧ (IsPlain (coordinate x).toList ↔ ¬ TooLarge x) ∧
      (IsNumber (coordinate x).toList ↔ ¬ TooLarge x) ∧
      (coordinate (-x)).toList = opposite (coordinate x).toList) ∧
    (∀ picture, d.render style = some picture → Legible picture.toList) ∧
    ∃ picture, (compose r s id c).diagram.bind Diagram.markup = some picture ∧
      Legible picture.toList := by
  refine ⟨⟨isWritten_coordinate x, Markup.isPlain_coordinate_iff x,
    Markup.isNumber_coordinate_iff x, Markup.coordinate_neg x⟩, fun picture hpicture => ?_, ?_⟩
  · exact Markup.legible_of_measured (Drawing.render_measured style hd hpicture)
  · obtain ⟨picture, hpicture, hmeasured⟩ := compose_measured hr s hid c
    exact ⟨picture, hpicture, Markup.legible_of_measured hmeasured⟩

/-- An empty canvas has a picture. -/
theorem exists_render_empty (width height : Float) :
    ∃ picture, ({ id := "d", width, height } : Diagram).render {} = some picture :=
  Option.isSome_iff_exists.1 (Diagram.render_isSome_iff.2 nofun)

/-- A number, an empty picture, and a series of two figures. -/
theorem plain_numbers_series :
    (¬ TooLarge 1.0005 ∧ (coordinate (-1.0005)).toList = "-1.001".toList) ∧
      (∃ picture, ({ id := "d", width := 600, height := 400 } : Diagram).render {} =
          some picture ∧ Legible picture.toList) ∧
      ∃ picture, (compose Registry.builtin .usual "combo-series"
          ⟨.series, [⟨"incline", [], none⟩, ⟨"hanging", [], none⟩]⟩).diagram.bind
            Diagram.markup = some picture ∧ Legible picture.toList := by
  obtain ⟨⟨-, hplain, -, hneg⟩, hpictures, hseries⟩ :=
    plain_numbers_iff 1.0005 {} (d := { id := "d", width := 600, height := 400 }) rfl
      Registry.builtin_plain .usual (by decide : IsId "combo-series")
      ⟨.series, [⟨"incline", [], none⟩, ⟨"hanging", [], none⟩]⟩
  obtain ⟨picture, hpicture⟩ := exists_render_empty 600 400
  exact ⟨⟨hplain.1 (by decide +kernel), hneg.trans (by decide +kernel)⟩,
    ⟨picture, hpicture, hpictures picture hpicture⟩, hseries⟩

/-- A double of which a thousandfold is none. -/
theorem large_number_written : (1e306 : Float).isFinite = true ∧ coordinate 1e306 = "inf" ∧
    ¬ IsPlain "inf".toList ∧ ¬ IsNumber "inf".toList ∧
      ∃ picture,
        ({ id := "d", width := 1e306, height := 400 } : Diagram).render {} = some picture ∧
        ("width".toList, "inf".toList) ∈ allAttributes picture.toList := by
  have hword : coordinate 1e306 = "inf" := by decide +kernel
  have hinfinity : ¬ IsNumber "inf".toList := fun h => h.not_infinity (by decide)
  have hescaped : Markup.escapeValue "inf" = "inf" := Markup.escapeValue_eq_self (by decide)
  refine ⟨by decide +kernel, hword, fun h => hinfinity h.isNumber, hinfinity, ?_⟩
  obtain ⟨picture, hpicture⟩ := exists_render_empty 1e306 400
  refine ⟨picture, hpicture, ?_⟩
  obtain ⟨grid, hgrid, rfl⟩ := Drawing.exists_of_render hpicture
  have hlayers := Drawing.layers_measured {} rfl hgrid
  rw [Drawing.picture, Markup.allAttributes_text (by decide)
    (Drawing.picture_isRoot {} rfl hgrid) hlayers.readOf.1]
  refine List.mem_append_left _ ?_
  simp [Markup.Tag.pairs, hword, hescaped]

end FreeBody.Composition
