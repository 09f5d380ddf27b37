import FreeBody.Proofs.Label.Reading
import FreeBody.Proofs.Markup.Entity
import FreeBody.Proofs.Markup.Layout

/-!
# The markup of labels

The markup of a label is made of plain characters, the entities of the three reserved ones and
`tspan` elements that open in one of two ways and nest (`IsLabelMarkup`), whatever the label is.
Without its tags and with its entities read, it is what the label says (`typeset_says`).
-/

namespace FreeBody.Label

open Markup (Run Shift decode escape escapeText runsText textEntity?)

/-! ## Well-formed markup -/

/-- The entities in the markup of a label. -/
def labelEntities : List String := ["&amp;", "&lt;", "&gt;"]

/-- The tags that open shifted text. -/
def shiftTags : List String := [
  "<tspan baseline-shift=\"sub\" font-size=\"0.7em\">",
  "<tspan baseline-shift=\"super\" font-size=\"0.7em\">"]

/-- Characters that are not reserved, entities, and shifted text between its tags. -/
inductive IsLabelMarkup : List Char → Prop
  | nil : IsLabelMarkup []
  | char {c : Char} {s : List Char} : c ≠ '<' → c ≠ '>' → c ≠ '&' → IsLabelMarkup s →
      IsLabelMarkup (c :: s)
  | entity {e : String} {s : List Char} : e ∈ labelEntities → IsLabelMarkup s →
      IsLabelMarkup (e.toList ++ s)
  | shifted {tag : String} {inner s : List Char} : tag ∈ shiftTags → IsLabelMarkup inner →
      IsLabelMarkup s → IsLabelMarkup (tag.toList ++ (inner ++ ("</tspan>".toList ++ s)))

theorem opening_mem_shiftTags (shift : Shift) : shift.opening ∈ shiftTags := by
  cases shift <;> decide

theorem isLabelMarkup_character (c : Char) {s : List Char} (h : IsLabelMarkup s) :
    IsLabelMarkup ((textEntity? c).getD [c] ++ s) := by
  unfold textEntity?
  split
  · exact .entity (e := "&amp;") (by decide) h
  · exact .entity (e := "&lt;") (by decide) h
  · exact .entity (e := "&gt;") (by decide) h
  · next hamp hlt hgt => exact .char hlt hgt hamp h

mutual

theorem isLabelMarkup_run : ∀ (r : Run) {s : List Char}, IsLabelMarkup s →
    IsLabelMarkup (r.text.toList ++ s)
  | .char c, s, h => by
    rw [Run.text, String.toList_ofList]
    exact isLabelMarkup_character c h
  | .shifted shift content, s, h => by
    have hinner := isLabelMarkup_runs content .nil
    rw [List.append_nil] at hinner
    rw [Run.text, String.toList_append, String.toList_append, List.append_assoc, List.append_assoc]
    exact .shifted (opening_mem_shiftTags shift) hinner h

/-- In front of label markup, a piece of text is label markup. -/
theorem isLabelMarkup_runs : ∀ (rs : List Run) {s : List Char}, IsLabelMarkup s →
    IsLabelMarkup ((runsText rs).toList ++ s)
  | [], s, h => h
  | r :: rest, s, h => by
    rw [runsText, String.toList_append, List.append_assoc]
    exact isLabelMarkup_run r (isLabelMarkup_runs rest h)

end

/-! ## Markup without its tags -/

/-- Markup without its tags; `inside` tells whether it begins inside of one. -/
def untagged (inside : Bool) : List Char → List Char
  | [] => []
  | c :: rest =>
    if inside then untagged (c != '>') rest
    else if c = '<' then untagged true rest
    else c :: untagged false rest

section

variable {s x : List Char}

theorem untagged_text (h : '<' ∉ s) (t : List Char) :
    untagged false (s ++ t) = s ++ untagged false t := by
  induction s with
  | nil => rfl
  | cons c s ih =>
    rw [List.mem_cons, not_or] at h
    rw [List.cons_append, untagged, if_neg Bool.false_ne_true, if_neg (Ne.symm h.1), ih h.2]
    rfl

theorem untagged_inside (h : '>' ∉ x) (t : List Char) :
    untagged true (x ++ '>' :: t) = untagged false t := by
  induction x with
  | nil => rfl
  | cons c x ih =>
    rw [List.mem_cons, not_or] at h
    have hc : (c != '>') = true := bne_iff_ne.2 (Ne.symm h.1)
    rw [List.cons_append, untagged, if_pos rfl, hc, ih h.2]

theorem untagged_tag (h : '>' ∉ x) (t : List Char) :
    untagged false ('<' :: x ++ '>' :: t) = untagged false t := by
  rw [List.cons_append, untagged, if_neg Bool.false_ne_true, if_pos rfl, untagged_inside h]

end

theorem untagged_opening (shift : Shift) (t : List Char) :
    untagged false (shift.opening.toList ++ t) = untagged false t := by
  have hinside : '>' ∉ shift.tag.inside := by cases shift <;> decide
  rw [shift.opening_eq, Markup.toList_opening, List.append_assoc, List.singleton_append,
    untagged_tag hinside]

theorem untagged_closing (t : List Char) :
    untagged false ("</tspan>".toList ++ t) = untagged false t :=
  untagged_tag (x := "/tspan".toList) (by decide) t

mutual

theorem untagged_run : ∀ (r : Run) (t : List Char), untagged false (r.text.toList ++ t) =
    escape textEntity? (runCharacters r) ++ untagged false t
  | .char c, t => by
    have hless : '<' ∉ (textEntity? c).getD [c] :=
      (Markup.escaped_textChar c).free '<' (by decide)
    rw [Run.text, String.toList_ofList, untagged_text hless, runCharacters,
      Markup.escape_eq_flatMap, List.flatMap_singleton]
  | .shifted shift content, t => by
    rw [Run.text, String.toList_append, String.toList_append, List.append_assoc, List.append_assoc,
      untagged_opening, untagged_runs content, untagged_closing, runCharacters]

/-- Without tags, a piece of text is its characters, escaped. -/
theorem untagged_runs : ∀ (rs : List Run) (t : List Char),
    untagged false ((runsText rs).toList ++ t) =
      escape textEntity? (runsCharacters rs) ++ untagged false t
  | [], t => rfl
  | r :: rest, t => by
    rw [runsText, String.toList_append, List.append_assoc, untagged_run r, untagged_runs rest,
      runsCharacters, Markup.escape_eq_flatMap, Markup.escape_eq_flatMap, Markup.escape_eq_flatMap,
      List.flatMap_append, List.append_assoc]

end

theorem decode_untagged_typeset (s : String) :
    decode (untagged false (typeset s).toList) = runsCharacters (runs s.toList) := by
  have h := untagged_runs (runs s.toList) []
  rw [List.append_nil, untagged, List.append_nil] at h
  rw [typeset, h, Markup.decode_escape Markup.decode_textEntity]

/-! ## Labels without marks -/

theorem runs_plain {s : List Char} (h : ∀ c ∈ s, c ≠ '\\' ∧ ¬ IsMark c) : runs s = s.map .char := by
  induction s with
  | nil => exact runs_nil
  | cons c s ih =>
    rw [List.forall_mem_cons] at h
    rw [runs_char h.1.1 h.1.2, ih h.2, List.map_cons]

/-- **Typesetting is safe and loses nothing.**  The markup of a label is well formed whatever the
label is.  Without its tags and with its entities read, it is what the label says, and this alone.
A label without a backslash, `_` and `^` is escaped, and that is all. -/
theorem typeset_says (s : String) :
    IsLabelMarkup (typeset s).toList ∧
      (∀ t, Says s.toList t ↔ t = decode (untagged false (typeset s).toList)) ∧
      ((∀ c ∈ s.toList, c ≠ '\\' ∧ c ≠ '_' ∧ c ≠ '^') → typeset s = escapeText s) := by
  refine ⟨?_, fun t => ?_, fun h => ?_⟩
  · have := isLabelMarkup_runs (runs s.toList) .nil
    rwa [List.append_nil] at this
  · rw [decode_untagged_typeset, says_iff]
  · have hplain : ∀ c ∈ s.toList, c ≠ '\\' ∧ ¬ IsMark c := fun c hc =>
      ⟨(h c hc).1, not_or.2 (h c hc).2⟩
    rw [typeset, runs_plain hplain]
    exact Markup.runsText_plainRuns s

/-- A group within a group, a word that names no symbol and a mark in front of nothing; and a label
without marks. -/
theorem typeset_says_nested :
    Says "\\pi_{x^2} & \\nope^".toList "πx2 & \\nope^".toList ∧
      (∀ c ∈ "a<b".toList, c ≠ '\\' ∧ c ≠ '_' ∧ c ≠ '^') ∧
      typeset "a<b" = escapeText "a<b" := by
  have hread : "πx2 & \\nope^".toList =
      decode (untagged false (typeset "\\pi_{x^2} & \\nope^").toList) := by
    rw [decode_untagged_typeset]
    decide +kernel
  have hplain : ∀ c ∈ "a<b".toList, c ≠ '\\' ∧ c ≠ '_' ∧ c ≠ '^' := by decide
  obtain ⟨-, hsaid, -⟩ := typeset_says "\\pi_{x^2} & \\nope^"
  obtain ⟨-, -, hescaped⟩ := typeset_says "a<b"
  exact ⟨(hsaid _).2 hread, hplain, hescaped hplain⟩

end FreeBody.Label
