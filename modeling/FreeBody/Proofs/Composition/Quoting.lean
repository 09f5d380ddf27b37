import FreeBody.Proofs.Composition.Language

/-!
# Quotes carry any text

In a comparison of quoted labels and presets the quotes are all that counts: commas, bars,
parentheses, blanks and line feeds within them are not marks of the notation.  So every pair gives
one entry, with its label as it is and with the preset or the call that is written
(`readCombination_quotedComparison`).
-/

namespace FreeBody.Composition

open Text (Spaces Stops isSpace strip trim)

/-! ## Pairs in quotes -/

/-- A text in quotes. -/
def quoted (s : String) : List Char := '"' :: (s.toList ++ ['"'])

/-- A preset that can stand in quotes: a name, or a call of a name with any text in its
parentheses. -/
inductive QuotedPreset
  | named (text : String) (quoteless : '"' ∉ text.toList) (plain : '(' ∉ text.toList)
      (trimmed : trim text.toList = text.toList)
  | called (name raw : String) (name_quoteless : '"' ∉ name.toList) (plain : '(' ∉ name.toList)
      (raw_quoteless : '"' ∉ raw.toList)

namespace QuotedPreset

/-- What is written in the quotes. -/
def text : QuotedPreset → String
  | named text _ _ _ => text
  | called name raw _ _ _ => name ++ "(" ++ raw ++ ")"

/-- What is asked for. -/
def entry : QuotedPreset → Entry
  | named text _ _ _ => { preset := text }
  | called name raw _ _ _ =>
    { preset := String.ofList (trim name.toList), args := Argument.readAll raw.toList }

theorem toList_text_called {name raw : String} (hname : '"' ∉ name.toList)
    (hplain : '(' ∉ name.toList) (hraw : '"' ∉ raw.toList) :
    (called name raw hname hplain hraw).text.toList =
      name.toList ++ '(' :: (raw.toList ++ [')']) := by
  rw [text]
  simp only [String.toList_append, List.append_assoc]
  rfl

theorem quote_not_mem (p : QuotedPreset) : '"' ∉ p.text.toList := by
  cases p with
  | named text hquoteless _ _ => exact hquoteless
  | called name raw hname hplain hraw =>
    rw [toList_text_called, List.mem_append, List.mem_cons, List.mem_append, List.mem_singleton]
    rintro (h | h | h | h)
    · exact hname h
    · exact absurd h (by decide)
    · exact hraw h
    · exact absurd h (by decide)

/-- What is read in the quotes is what is asked for. -/
theorem entry_quoted (p : QuotedPreset) : (Segment.quoted p.text.toList).entry = p.entry := by
  cases p with
  | named text hquoteless hplain htrimmed =>
    have hentry := Segment.entry_of_name (a := .quoted text.toList) hplain
    rwa [Segment.text, htrimmed, String.ofList_toList] at hentry
  | called name raw hname hplain hraw =>
    exact Segment.entry_of_call hplain (toList_text_called hname hplain hraw)

end QuotedPreset

/-- A label and a preset in quotes, with any blanks around each and around the bar. -/
structure QuotedPair where
  label : String
  preset : QuotedPreset
  quoteless : '"' ∉ label.toList
  front : List Char := []
  behindLabel : List Char := []
  behindBar : List Char := []
  back : List Char := []
  spaces : Spaces front ∧ Spaces behindLabel ∧ Spaces behindBar ∧ Spaces back

namespace QuotedPair

/-- The slot of a pair. -/
def text (p : QuotedPair) : List Char :=
  (p.front ++ (quoted p.label ++ p.behindLabel)) ++
    '|' :: (p.behindBar ++ (quoted p.preset.text ++ p.back))

/-- The entry of a pair: its label as it is, and its preset. -/
def entry (p : QuotedPair) : Entry := { p.preset.entry with label := some p.label }

end QuotedPair

/-- The text of a comparison of pairs. -/
def quotedComparison (pairs : List QuotedPair) : List Char :=
  "COMPARE:".toList ++ [','].intercalate (pairs.map QuotedPair.text)

/-! ## Slots in quotes -/

/-- Blanks around a text in quotes are not a part of it. -/
theorem isWritten_quoted {s : String} {u v : List Char} (hs : '"' ∉ s.toList) (hu : Spaces u)
    (hv : Spaces v) :
    (Segment.quoted s.toList).IsWritten (strip isSpace (u ++ (quoted s ++ v))) := by
  have hstart : Stops isSpace (quoted s) := Text.stops_cons_iff.2 rfl
  have hend : Stops isSpace (quoted s).reverse := by
    rw [quoted, List.reverse_cons, List.reverse_append]
    exact Text.stops_cons_iff.2 rfl
  rw [Text.strip_surround hu hv hstart hend]
  exact .quoted hs

theorem QuotedPair.asks (p : QuotedPair) : Asks true p.text p.entry := by
  obtain ⟨hfront, hbehindLabel, hbehindBar, hback⟩ := p.spaces
  refine ⟨.two (.quoted p.label.toList) (.quoted p.preset.text.toList),
    .two rfl (isWritten_quoted p.quoteless hfront hbehindLabel)
      (isWritten_quoted p.preset.quote_not_mem hbehindBar hback), ?_⟩
  rw [Slot.entry, QuotedPreset.entry_quoted, Segment.text, String.ofList_toList, QuotedPair.entry]

/-- **Quotes carry any text.**  A comparison of pairs in quotes is read, and has one entry for each
pair in order: with the label of the pair as it is, and with its preset, the one that is named
without arguments, or the one that is called with all of the text in the parentheses. -/
theorem readCombination_quotedComparison (pairs : List QuotedPair) (h : pairs ≠ []) :
    readCombination (quotedComparison pairs) =
      .ok ⟨.comparison none, pairs.map QuotedPair.entry⟩ := by
  have hheads : Heads "COMPARE:".toList (.comparison none) true := .compare rfl
  have hasks : List.Forall₂ (Asks true) (pairs.map QuotedPair.text) (pairs.map QuotedPair.entry) :=
    List.forall₂_map_left_iff.2 (List.forall₂_map_right_iff.2
      (List.forall₂_same.2 fun p _ => p.asks))
  have hslots : pairs.map QuotedPair.text ≠ [] := List.map_eq_nil_iff.not.2 h
  have hread := (readCombination_heads (c := ⟨.comparison none, pairs.map QuotedPair.entry⟩)
    (List.forall_mem_nil _) hheads).2 ⟨rfl, forall₂_slotTexts_iff.2 ⟨_, hslots, rfl, hasks⟩⟩
  rwa [List.nil_append] at hread

/-- An empty label, and one of nothing but marks. -/
theorem readCombination_quoted_marks :
    readCombination
        "COMPARE: \"\"|\"beam\"\n,\" (a,b|\n\"\t| \" Incline-2 (30, (x|y),[1)\"".toList =
      .ok ⟨.comparison none, [
        { preset := "beam", label := some "" },
        { preset := "Incline-2", args := Argument.readAll "30, (x|y),[1".toList,
          label := some " (a,b|\n" }]⟩ := by
  have hread := readCombination_quotedComparison [
    { label := "", preset := .named "beam" (by decide) (by decide) (by decide),
      quoteless := by decide, front := [' '], back := ['\n'],
      spaces := by unfold Spaces; decide },
    { label := " (a,b|\n",
      preset := .called " Incline-2 " "30, (x|y),[1" (by decide) (by decide) (by decide),
      quoteless := by decide, behindLabel := ['\t'], behindBar := [' '],
      spaces := by unfold Spaces; decide }] (by simp)
  exact hread

end FreeBody.Composition
