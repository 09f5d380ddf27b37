import FreeBody.Proofs.Markup.Entity
import FreeBody.Proofs.Markup.Layout
import FreeBody.Sheet.Command

/-!
# Escaping

Escaping a text is exact: the runs that are copied are cut between characters, every reserved
character becomes its entity and nothing else changes, what comes out holds a reserved character
only at the front of an entity, and reading the entities gives the text again (`EscapesTo`).

Pages are escaped in another way, by one pass over the whole text for each reserved character.  The
pass for `&` comes first, so no entity is escaped twice, and the result is the same
(`escaping_exact`).
-/

namespace FreeBody.Markup

/-! ## Tables of entities -/

/-- What the entities of a table are like: `&` and the reserved characters have one, all in ASCII;
an entity is a `&` without a second one and without reserved characters; and it is read as its
character, as are those that have none. -/
structure IsTable (entity? : Char → Option (List Char)) (reserved : List Char) : Prop where
  ascii : Ascii entity?
  isSome_iff : ∀ c, (entity? c).isSome ↔ c = '&' ∨ c ∈ reserved
  shape : ∀ c e, entity? c = some e →
    (∃ more, e = '&' :: more ∧ '&' ∉ more) ∧ ∀ d ∈ reserved, d ∉ e
  decode : ∀ c rest, decode ((entity? c).getD [c] ++ rest) = c :: decode rest

theorem shape_of_mem {e : List Char} (h : e ∈ entities) :
    (∃ more, e = '&' :: more ∧ '&' ∉ more) ∧ ∀ d ∈ valueReserved, d ∉ e := by
  have hall : ∀ e ∈ entities, e.head? = some '&' ∧ '&' ∉ e.tail ∧ ∀ d ∈ valueReserved, d ∉ e := by
    decide
  obtain ⟨hhead, htail, hfree⟩ := hall e h
  exact ⟨⟨e.tail, List.eq_cons_of_mem_head? hhead, htail⟩, hfree⟩

theorem isSome_textEntity_iff (c : Char) :
    (textEntity? c).isSome ↔ c = '&' ∨ c ∈ textReserved := by
  unfold textEntity?
  split <;> simp_all [textReserved]

theorem isSome_valueEntity_iff (c : Char) :
    (valueEntity? c).isSome ↔ c = '&' ∨ c ∈ valueReserved := by
  unfold valueEntity?
  split
  · simp [valueReserved]
  · simp [valueReserved]
  · rw [isSome_textEntity_iff]
    simp_all [textReserved, valueReserved]

theorem isTable_valueEntity : IsTable valueEntity? valueReserved where
  ascii := ascii_valueEntity
  isSome_iff := isSome_valueEntity_iff
  shape c _ h := shape_of_mem (mem_entities_iff.2 ⟨c, h⟩)
  decode := decode_valueEntity

theorem isTable_textEntity : IsTable textEntity? textReserved where
  ascii := ascii_textEntity
  isSome_iff := isSome_textEntity_iff
  shape c _ h := by
    have hsub : textReserved ⊆ valueReserved := by decide
    obtain ⟨hshape, hfree⟩ := shape_of_mem (mem_entities_iff.2 ⟨c, valueEntity?_of_textEntity? h⟩)
    exact ⟨hshape, fun d hd => hfree d (hsub hd)⟩
  decode := decode_textEntity

/-! ## What escaping does -/

/-- Whether `out` is the escaped form of `s`, in all that this comes to. -/
structure EscapesTo (entity? : Char → Option (List Char)) (reserved : List Char)
    (s out : String) : Prop where
  /-- No run that is copied is cut inside a character. -/
  copied : escapeRuns entity? s = some out
  replaced : out.toList = s.toList.flatMap fun c => (entity? c).getD [c]
  free : ∀ c ∈ reserved, c ∉ out.toList
  begins : ∀ u v, out.toList = u ++ '&' :: v → ∃ c ∈ '&' :: reserved, ∃ e,
    entity? c = some e ∧ e <+: '&' :: v
  decoded : decode out.toList = s.toList

section

variable {entity? : Char → Option (List Char)} {reserved s : List Char}

theorem IsTable.free (h : IsTable entity? reserved) {c : Char} (hc : c ∈ reserved) :
    c ∉ escape entity? s := by
  intro hmem
  obtain ⟨d, -, hd⟩ := List.mem_flatMap.1 hmem
  cases hentity : entity? d with
  | some e =>
    rw [hentity, Option.getD_some] at hd
    exact (h.shape d e hentity).2 c hc hd
  | none =>
    rw [hentity, Option.getD_none, List.mem_singleton] at hd
    have hsome := (h.isSome_iff d).2 (.inr (hd ▸ hc))
    rw [hentity] at hsome
    cases hsome

/-- A `&` in what one character becomes is the first character of its entity. -/
theorem IsTable.eq_nil_of_amp (h : IsTable entity? reserved) {c : Char} {u v : List Char}
    (hs : (entity? c).getD [c] = u ++ '&' :: v) : u = [] ∧ entity? c = some ('&' :: v) := by
  cases hentity : entity? c with
  | some e =>
    obtain ⟨⟨more, rfl, hmore⟩, -⟩ := h.shape c e hentity
    rw [hentity, Option.getD_some] at hs
    cases u with
    | nil => exact ⟨rfl, congrArg some hs⟩
    | cons d u =>
      rw [(List.cons.inj hs).2] at hmore
      exact absurd (List.mem_append_right u List.mem_cons_self) hmore
  | none =>
    rw [hentity, Option.getD_none] at hs
    have hamp : '&' ∈ [c] := hs ▸ List.mem_append_right u List.mem_cons_self
    have hsome := (h.isSome_iff c).2 (.inl (List.mem_singleton.1 hamp).symm)
    rw [hentity] at hsome
    cases hsome

/-- Every `&` that is written begins an entity of the table. -/
theorem IsTable.begins (h : IsTable entity? reserved) {u v : List Char}
    (hs : escape entity? s = u ++ '&' :: v) : ∃ c e, entity? c = some e ∧ e <+: '&' :: v := by
  induction s generalizing u with
  | nil => exact absurd hs.symm (by simp [escape])
  | cons c s ih =>
    rw [escape, List.flatMap_cons, ← escape] at hs
    rcases List.append_eq_append_iff.1 hs with ⟨gap, -, hlater⟩ | ⟨gap, hhere, hrest⟩
    · exact ih hlater
    · cases gap with
      | nil =>
        have hlater : escape entity? s = [] ++ '&' :: v := hrest.symm
        exact ih hlater
      | cons d gap =>
        obtain ⟨rfl, rfl⟩ := List.cons.inj hrest
        obtain ⟨-, hentity⟩ := h.eq_nil_of_amp hhere
        exact ⟨c, _, hentity, List.prefix_append _ _⟩

theorem IsTable.escapesTo (h : IsTable entity? reserved) (s : String) :
    EscapesTo entity? reserved s (String.ofList (escape entity? s.toList)) where
  copied := escapeRuns_eq h.ascii s
  replaced := String.toList_ofList
  free c hc := by
    rw [String.toList_ofList]
    exact h.free hc
  begins u v huv := by
    rw [String.toList_ofList] at huv
    obtain ⟨c, e, hentity, hprefix⟩ := h.begins huv
    refine ⟨c, ?_, e, hentity, hprefix⟩
    rw [List.mem_cons, ← h.isSome_iff, hentity]
    rfl
  decoded := by
    rw [String.toList_ofList]
    exact decode_escape h.decode s.toList

end

/-! ## One pass for each character -/

/-- The three passes of a page replace each character once. -/
theorem pageText_eq_escapeText (s : String) : Sheet.pageText s = escapeText s := by
  have hchar (c : Char) :
      ((if c = '&' then "&amp;".toList else [c]).flatMap fun c =>
        (if c = '<' then "&lt;".toList else [c]).flatMap fun c =>
          if c = '>' then "&gt;".toList else [c]) = (textEntity? c).getD [c] := by
    by_cases hamp : c = '&'
    · subst hamp
      decide
    by_cases hless : c = '<'
    · subst hless
      decide
    by_cases hgreater : c = '>'
    · subst hgreater
      decide
    have hnone : textEntity? c = none := by
      rw [← Option.not_isSome_iff_eq_none, isSome_textEntity_iff]
      simp [textReserved, hamp, hless, hgreater]
    simp [hamp, hless, hgreater, hnone]
  rw [Sheet.pageText, escapeText_eq]
  simp only [Text.replaceChar, List.flatMap_assoc, hchar, escape]

/-- **Escaping is exact and can be undone.**  For every text, copying runs of bytes is replacing
the reserved characters one by one; the result holds none of them but `&` where an entity begins,
and its entities are read as the text.  A page escapes the text in the same way. -/
theorem escaping_exact (s : String) :
    EscapesTo textEntity? textReserved s (escapeText s) ∧
      EscapesTo valueEntity? valueReserved s (escapeValue s) ∧
      Sheet.pageText s = escapeText s := by
  refine ⟨?_, ?_, pageText_eq_escapeText s⟩
  · rw [escapeText_eq]
    exact isTable_textEntity.escapesTo s
  · rw [escapeValue_eq]
    exact isTable_valueEntity.escapesTo s

end FreeBody.Markup
