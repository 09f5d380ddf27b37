import FreeBody.Proofs.Diagram.Plain
import FreeBody.Proofs.Markup.Names
import Mathlib.Data.List.Nodup

/-!
# Names in pictures

The picture of a plain diagram has three ids, its own and those of its two definitions, and refers
to the definitions only (`render_reads`).  Without its root it has the latter two
(`rootContent_reads`).  A picture that shows a drawing has the names of the drawing as well
(`shows_reads`).
-/

namespace FreeBody

open Markup (Node NodesFit Reads NodesRead Tame idValues nodesAttributes allAttributes
  valueReferences valueReserved escapeValue isNumeral coordinate rootContent)
open Text (trim)

/-! ## Ids -/

/-- The characters that do not stand in ids: they would be escaped, or end a reference or a
line. -/
def idReserved : List Char := '#' :: ')' :: '\n' :: '&' :: valueReserved

/-- Whether a string may be an id and be referred to as it is. -/
def IsId (s : String) : Prop := ∀ c ∈ idReserved, c ∉ s.toList

instance (s : String) : Decidable (IsId s) :=
  inferInstanceAs (Decidable (∀ c ∈ idReserved, c ∉ s.toList))

theorem IsId.append {s t : String} (hs : IsId s) (ht : IsId t) : IsId (s ++ t) := by
  intro c hc
  rw [String.toList_append, List.mem_append, not_or]
  exact ⟨hs c hc, ht c hc⟩

theorem isId_toString (n : Nat) : IsId (toString n) := by
  have hreserved : ∀ c ∈ idReserved, isNumeral c = false := by decide
  exact fun c hc => Markup.not_mem_toString (hreserved c hc) n

theorem IsId.escapeValue_eq {s : String} (h : IsId s) : escapeValue s = s := by
  have hsub : '&' :: valueReserved ⊆ idReserved := by decide
  exact Markup.escapeValue_eq_self fun c hc => h c (hsub hc)

theorem isId_markerId {id : String} (h : IsId id) : IsId (markerId id) := h.append (by decide)

theorem isId_gradientId {id : String} (h : IsId id) : IsId (gradientId id) := h.append (by decide)

section

variable {known : List (List Char)} {k v : String}

/-- An id refers to nothing. -/
theorem IsId.tame (h : IsId v) : Tame known (k, v) := by
  rw [Tame, h.escapeValue_eq, Markup.valueReferences_of_not_mem (h '#' (by decide))]
  exact ⟨nofun, h '\n' (by decide)⟩

/-- A reference refers to its id. -/
theorem IsId.tame_reference (h : IsId v) (hknown : v.toList ∈ known) :
    Tame known (k, reference v) := by
  have hescape : (escapeValue (reference v)).toList = "url(#".toList ++ v.toList ++ [')'] := by
    have hself : escapeValue (reference v) = reference v := by
      refine Markup.escapeValue_eq_self fun c hc => ?_
      have hsub : '&' :: valueReserved ⊆ idReserved := by decide
      have hmarks : ∀ c ∈ '&' :: valueReserved, c ∉ "url(#".toList ∧ c ∉ ")".toList := by decide
      rw [reference, String.toList_append, String.toList_append, List.mem_append, List.mem_append,
        not_or, not_or]
      exact ⟨⟨(hmarks c hc).1, h c (hsub hc)⟩, (hmarks c hc).2⟩
    rw [hself, reference, String.toList_append, String.toList_append]
    rfl
  rw [Tame, hescape, Markup.valueReferences_url (h '#' (by decide)) (h ')' (by decide))]
  refine ⟨fun x hx => List.mem_singleton.1 hx ▸ hknown, ?_⟩
  have hline := h '\n' (by decide)
  simpa using hline

/-- A colour that is written out refers to nothing. -/
theorem tame_of_quiet (h : valueReferences (escapeValue v).toList = [] ∧
    '\n' ∉ (escapeValue v).toList) : Tame known (k, v) := ⟨h.1 ▸ nofun, h.2⟩

theorem tame_of_harmless (h : Drawing.Harmless v) : Tame known (k, v) := by
  have hhash : '#' ∉ (escapeValue v).toList := by
    intro hc
    rcases Markup.mem_escapeValue hc with hv | ⟨d, hd, e, hentity, he⟩
    · exact h.hash hv
    · exact h.quote (Markup.eq_quote_of_hash_mem hentity he ▸ hd)
  have hline : '\n' ∉ (escapeValue v).toList := by
    have hentities : ∀ e ∈ Markup.entities, '\n' ∉ e := by decide
    intro hc
    rcases Markup.mem_escapeValue hc with hv | ⟨d, hd, e, hentity, he⟩
    · exact h.newline hv
    · exact hentities e (Markup.mem_entities_iff.2 ⟨d, hentity⟩) he
  rw [Tame, Markup.valueReferences_of_not_mem hhash]
  exact ⟨nofun, hline⟩

section

variable {special : List (String × String)} (hspecial : ∀ b ∈ special, Tame known b)

include hspecial

theorem tame_of_mem (b : String × String) (h : Drawing.Harmless b.2 ∨ b ∈ special) :
    Tame known b := h.elim tame_of_harmless (hspecial b)

/-- A tag whose attributes are harmless, but for some that are tame. -/
theorem tag_reads {t : Markup.Tag} (h : ∀ b ∈ t.attributes, Drawing.Harmless b.2 ∨ b ∈ special)
    {named : List (List Char)} (hnamed : idValues t.pairs = named) : Reads named known t.pairs :=
  hnamed ▸ Markup.Tag.reads (tame_of_mem hspecial) h

/-- A tree whose attributes are harmless, but for some that are tame. -/
theorem tree_reads {n : Node} (h : n.All fun b => Drawing.Harmless b.2 ∨ b ∈ special)
    {named : List (List Char)} (hnamed : idValues n.attributes = named) : n.Reads named known :=
  hnamed ▸ h.reads (tame_of_mem hspecial)

/-- A tree of this kind without ids. -/
theorem nameless_reads {n : Node}
    (h : n.All fun b => b.1 ≠ "id" ∧ (Drawing.Harmless b.2 ∨ b ∈ special)) : n.Reads [] known :=
  h.reads_nameless (fun b hb => tame_of_mem hspecial b hb.2) fun _ hb => hb.1

end

end

namespace Drawing

/-! ## Pictures of plain diagrams -/

/-- The ids of the definitions in the picture of the diagram `id`. -/
def definitionIds (id : String) : List (List Char) := [(markerId id).toList, (gradientId id).toList]

/-- The ids in the picture of the diagram `id`. -/
def pictureIds (id : String) : List (List Char) := id.toList :: definitionIds id

theorem definitionIds_subset (id : String) : definitionIds id ⊆ pictureIds id :=
  List.subset_cons_self _ _

/-- What the ids in a picture have behind that of the diagram. -/
def pictureEndings : List (List Char) := ["".toList, "-arrow".toList, "-body-fill".toList]

theorem pictureIds_eq (id : String) :
    pictureIds id = pictureEndings.map (id.toList ++ ·) := by
  simp [pictureIds, definitionIds, pictureEndings, markerId, gradientId]

theorem pictureIds_nodup (id : String) : (pictureIds id).Nodup := by
  rw [pictureIds_eq]
  exact List.Nodup.map (List.append_right_injective _) (by decide)

theorem extends_of_mem_pictureIds {id : String} {x : List Char} (h : x ∈ pictureIds id) :
    Markup.Extends id.toList x := by
  rw [pictureIds_eq] at h
  obtain ⟨ending, hending, rfl⟩ := List.mem_map.1 h
  have hstops : ∀ e ∈ pictureEndings, Text.Stops Decimal.isDigit e := by decide
  exact ⟨ending, rfl, hstops ending hending⟩

theorem tame_of_choice {d : Diagram} (hd : d.Unstyled) (hid : IsId d.id) {k v : String}
    (hv : v ∈ choices {} d) : Tame (definitionIds d.id) (k, v) := by
  have hmarker : Tame (definitionIds d.id) (k, reference (markerId d.id)) :=
    (isId_markerId hid).tame_reference (by simp [definitionIds])
  have hgradient : Tame (definitionIds d.id) (k, reference (gradientId d.id)) :=
    (isId_gradientId hid).tame_reference (by simp [definitionIds])
  have hcolors : ∀ v ∈ gradientColors ++ ({} : Style).colors,
      valueReferences (escapeValue v).toList = [] ∧ '\n' ∉ (escapeValue v).toList := by
    simp only [Markup.escapeValue_eq]
    decide
  simp only [choices, List.mem_append, or_assoc] at hv
  rcases hv with hv | hv | hv | hv
  · exact tame_of_quiet (hcolors v (List.mem_append_left _ hv))
  · exact tame_of_quiet (hcolors v (List.mem_append_right _ hv))
  · exact tame_of_harmless (hd.harmless v hv)
  · simp only [Diagram.names, List.mem_cons, List.not_mem_nil, or_false] at hv
    rcases hv with rfl | rfl | rfl | rfl
    · exact (isId_markerId hid).tame
    · exact (isId_gradientId hid).tame
    · exact hmarker
    · exact hgradient

section

variable {d : Diagram} (hd : d.Unstyled) (hid : IsId d.id)

include hd hid

/-- The definitions have their ids, and refer to nothing else. -/
theorem definitions_reads :
    (definitions {} d.id).Reads (definitionIds d.id) (definitionIds d.id) := by
  have hdrawn : (definitions {} d.id).All fun a =>
      a = ("id", markerId d.id) ∨ a = ("id", gradientId d.id) ∨ Drawn {} d a := definitions_drawn
  have hreads : (definitions {} d.id).Reads _ (definitionIds d.id) := hdrawn.reads fun b hb => by
    rcases hb with rfl | rfl | hb
    · exact (isId_markerId hid).tame
    · exact (isId_gradientId hid).tame
    · exact hb.value.elim tame_of_harmless (tame_of_choice hd hid)
  have hids : idValues (definitions {} d.id).attributes = definitionIds d.id := by
    simp [definitions, Node.attributes, nodesAttributes, Markup.Tag.pairs, idValues, definitionIds,
      (isId_markerId hid).escapeValue_eq, (isId_gradientId hid).escapeValue_eq]
  exact hids ▸ hreads

variable {grid : List Node} (hgrid : gridLayer {} d = some grid)

include hgrid

/-- What lies on the definitions has no ids, and refers to the definitions. -/
theorem upper_read : NodesRead [] (definitionIds d.id) (upper {} d grid) :=
  (upper_drawn hd.art hgrid).read_nameless
    (fun _ hb => hb.value.elim tame_of_harmless (tame_of_choice hd hid)) fun _ hb => hb.id

theorem layers_read : NodesRead (definitionIds d.id) (definitionIds d.id)
    (definitions {} d.id :: upper {} d grid) := by
  have := NodesRead.cons (definitions_reads hd hid) (upper_read hd hid hgrid)
  rwa [List.append_nil] at this

/-- A picture without its root is read like its layers. -/
theorem rootContent_attributes : allAttributes (rootContent (picture {} d grid).text.toList) =
    nodesAttributes (definitions {} d.id :: upper {} d grid) := by
  have hlayers := layers_read hd hid hgrid
  exact (layers_fit {} hd.art hgrid).attributes_relaid (by decide) hlayers.unbroken
    hlayers.reads.unbroken (contentLines_rootContent {} hd.art hgrid)

end

/-- A picture without its root has the ids of its definitions. -/
theorem rootContent_reads {d : Diagram} (hd : d.Unstyled) (hid : IsId d.id) {markup : String}
    (h : d.render {} = some markup) : Reads (definitionIds d.id) (definitionIds d.id)
      (allAttributes (rootContent markup.toList)) := by
  obtain ⟨grid, hgrid, rfl⟩ := exists_of_render h
  exact rootContent_attributes hd hid hgrid ▸ (layers_read hd hid hgrid).reads

/-- The root of a picture has the id of the diagram. -/
theorem root_reads {d : Diagram} (hid : IsId d.id) (known : List (List Char)) :
    Reads [d.id.toList] known (Markup.Tag.pairs ⟨"svg", [
      ("xmlns", "http://www.w3.org/2000/svg"),
      ("id", d.id),
      ("class", "fbd-diagram"),
      ("width", coordinate d.width),
      ("height", coordinate d.height),
      ("viewBox", "0 0 " ++ coordinate d.width ++ " " ++ coordinate d.height)]⟩) := by
  have hspecial : ∀ b ∈ [("id", d.id)], Tame known b := by simpa using hid.tame
  refine tag_reads hspecial ?_ ?_
  · simp (disch := decide) [Drawing.harmless_iff, Markup.not_mem_coordinate]
  · simp [Markup.Tag.pairs, idValues, hid.escapeValue_eq]

/-- **Names in plain pictures.** -/
theorem render_reads {d : Diagram} (hd : d.Unstyled) (hid : IsId d.id) {markup : String}
    (h : d.render {} = some markup) :
    Reads (pictureIds d.id) (definitionIds d.id) (allAttributes markup.toList) := by
  obtain ⟨grid, hgrid, rfl⟩ := exists_of_render h
  have hlayers := layers_read hd hid hgrid
  rw [picture, Markup.allAttributes_text (by decide) (picture_isRoot {} hd.art hgrid)
    hlayers.unbroken]
  exact (root_reads hid _).append hlayers.reads

/-- The picture of a plain diagram has its names under the id of the diagram. -/
theorem exists_picture_of_plain {d : Diagram} (h : d.Plain) (hid : IsId d.id) :
    ∃ picture, d.markup = some picture ∧
      Markup.NamesUnder d.id.toList picture.toList := by
  obtain ⟨picture, hmarkup, hrender⟩ := h.exists_picture
  have hreads := render_reads h.unstyled hid hrender
  exact ⟨picture, hmarkup, hreads.namesUnder (definitionIds_subset _) (pictureIds_nodup _)
    fun x hx => extends_of_mem_pictureIds hx⟩

/-! ## Pictures of drawings -/

section

variable {drawing : List Node} {named known : List (List Char)} (h : NodesFit Inner drawing)
  (hreads : NodesRead named known drawing)

include h hreads

/-- A drawing without the blanks around it is read as it is. -/
theorem attributes_trim : allAttributes (trim (Markup.nodesText drawing).toList) =
    nodesAttributes drawing :=
  h.attributes_relaid (by decide) hreads.unbroken hreads.reads.unbroken (Text.contentLines_trim _)

theorem asArt_read : NodesRead named known (asArt drawing) := by
  cases drawing with
  | nil => exact hreads
  | cons n rest =>
    have hgroup : Reads [] known (Markup.Tag.pairs ⟨"g", [("class", "fbd-background-art")]⟩) :=
      tag_reads (List.forall_mem_nil _) (by simp [Drawing.harmless_iff])
        (by simp [Markup.Tag.pairs, idValues])
    have hcontent := (h.relaid (by decide) List.not_mem_nil (Text.contentLines_trim _)).1
    have hattributes := attributes_trim h hreads
    rw [← String.toList_ofList (l := trim _)] at hcontent hattributes
    have hart := Node.reads_verbatim hcontent (hattributes ▸ hreads.reads)
    exact .singleton (Node.reads_group hgroup (.singleton hart))

variable {d : Diagram} (hbare : { d with backgroundMarkup := none }.Unstyled) (hid : IsId d.id)
  (hd : Shows d drawing)

include hbare hid hd

theorem shown_read : NodesRead (definitionIds d.id ++ named) (definitionIds d.id ++ known)
    (definitions {} d.id :: upper {} { d with backgroundMarkup := none } [] ++
      asArt drawing) := by
  have hlower : NodesRead (definitionIds d.id) (definitionIds d.id)
      (definitions {} d.id :: upper {} { d with backgroundMarkup := none } []) :=
    layers_read (d := { d with backgroundMarkup := none }) hbare hid
      (gridLayer_of_hidden {} hd.hidden)
  exact (hlower.mono (List.subset_append_left _ known)).append
    ((asArt_read h hreads).mono (List.subset_append_right (definitionIds d.id) known))

/-- **Names in pictures of drawings.**  The picture has the names of the drawing besides its
own. -/
theorem shows_reads : Reads (pictureIds d.id ++ named) (definitionIds d.id ++ known)
    (allAttributes (picture {} d []).text.toList) := by
  have hlayers := shown_read h hreads hbare hid hd
  rw [← layers_of_shows {} hd] at hlayers
  rw [picture, Markup.allAttributes_text (by decide) (picture_isRoot_of_shows {} hd h)
    hlayers.unbroken]
  exact (root_reads hid _).append hlayers.reads

end

end Drawing

end FreeBody
