import FreeBody.Proofs.Composition.Segment
import Mathlib.Data.List.Forall2

/-!
# The slots of a combination

`slotTexts` cuts a text at its top-level commas: those that stand neither in quotes nor inside
parentheses.  It looks at nothing but these marks, and cuts any text, written well or not.  Where
the pieces are slots, no other commas could have parted them (`forall₂_slotTexts_iff`).

The slots that are read are the pieces of that cut.  The reading ends at the end of the text
exactly when every piece asks for an entry, and the entries are those, one for each piece in order
(`readSlots_iff`).
-/

namespace FreeBody.Composition

open Text (Balanced Spaces isSpace skipSpaces strip)

/-! ## Cutting at commas -/

/-- What a place in a text stands within; parentheses stand within `depth` others. -/
inductive Within
  | nothing
  | quotes
  | parentheses (depth : Nat)
  deriving DecidableEq

/-- Where the place behind `c` stands. -/
def Within.next : Within → Char → Within
  | nothing, c => if c = '"' then quotes else if c = '(' then parentheses 0 else nothing
  | quotes, c => if c = '"' then nothing else quotes
  | parentheses depth, c =>
    if c = '(' then parentheses (depth + 1)
    else if c = ')' then (match depth with | 0 => nothing | depth + 1 => parentheses depth)
    else parentheses depth

/-- The texts between the top-level commas of a text whose front stands within `w`. -/
def slotTexts (w : Within) : List Char → List (List Char)
  | [] => [[]]
  | c :: rest =>
    if w = .nothing ∧ c = ',' then [] :: slotTexts .nothing rest
    else (slotTexts (w.next c) rest).modifyHead (c :: ·)

/-- The first text ends at a comma with the others behind it, or at the end. -/
theorem exists_slotTexts (w : Within) (s : List Char) :
    ∃ t ts, slotTexts w s = t :: ts ∧
      ((ts = [] ∧ s = t) ∨ ∃ rest, ts = slotTexts .nothing rest ∧ s = t ++ ',' :: rest) := by
  induction s generalizing w with
  | nil => exact ⟨[], [], rfl, Or.inl ⟨rfl, rfl⟩⟩
  | cons c s ih =>
    rw [slotTexts]
    by_cases hcut : w = .nothing ∧ c = ','
    · obtain ⟨rfl, rfl⟩ := hcut
      exact ⟨[], _, if_pos ⟨rfl, rfl⟩, Or.inr ⟨s, rfl, rfl⟩⟩
    · obtain ⟨t, ts, hts, h⟩ := ih (w.next c)
      rw [if_neg hcut, hts]
      refine ⟨c :: t, ts, rfl, ?_⟩
      rcases h with ⟨rfl, rfl⟩ | ⟨rest, rfl, rfl⟩
      · exact Or.inl ⟨rfl, rfl⟩
      · exact Or.inr ⟨rest, rfl, rfl⟩

/-- Cutting loses nothing: with commas between them, the texts are the whole. -/
theorem intercalate_slotTexts (w : Within) (s : List Char) :
    [','].intercalate (slotTexts w s) = s := by
  induction hn : s.length using Nat.strongRecOn generalizing w s with
  | ind n ih =>
    obtain ⟨t, ts, hts, ⟨rfl, rfl⟩ | ⟨rest, rfl, rfl⟩⟩ := exists_slotTexts w s
    · rw [hts, List.intercalate_singleton]
    · have hrest := ih rest.length (by simp at hn; omega) .nothing rest rfl
      obtain ⟨t', ts', hts', -⟩ := exists_slotTexts .nothing rest
      rw [hts, hts', List.intercalate_cons_cons, ← hts', hrest, List.append_assoc]
      rfl

example : slotTexts .nothing "a(1,2),\"b,(\",,c".toList =
    ["a(1,2)".toList, "\"b,(\"".toList, [], ['c']] := by decide

/-! ## Text without top-level commas -/

/-- Whether `t` leads from within `w` to within `w'` without a top-level comma. -/
def Passes (w : Within) (t : List Char) (w' : Within) : Prop :=
  ∀ rest, slotTexts w (t ++ rest) = (slotTexts w' rest).modifyHead (t ++ ·)

section

variable {w w' w'' : Within} {s t : List Char} {c : Char}

theorem passes_nil (w : Within) : Passes w [] w := by
  intro rest
  obtain ⟨t, ts, hts, -⟩ := exists_slotTexts w rest
  rw [List.nil_append, hts]
  rfl

theorem Passes.append (h : Passes w s w') (h' : Passes w' t w'') : Passes w (s ++ t) w'' := by
  intro rest
  rw [List.append_assoc, h, h', List.modifyHead_modifyHead]
  simp only [Function.comp_def, List.append_assoc]

theorem passes_char (h : w ≠ .nothing ∨ c ≠ ',') : Passes w [c] (w.next c) := by
  intro rest
  rw [List.singleton_append, slotTexts, if_neg (by tauto)]
  rfl

theorem Passes.cons (hc : w ≠ .nothing ∨ c ≠ ',') (h : Passes (w.next c) t w') :
    Passes w (c :: t) w' := (passes_char hc).append h

/-- Characters that leave the place as it is. -/
theorem passes_of_forall (h : ∀ c ∈ t, (w ≠ .nothing ∨ c ≠ ',') ∧ w.next c = w) :
    Passes w t w := by
  induction t with
  | nil => exact passes_nil w
  | cons c t ih =>
    rw [List.forall_mem_cons] at h
    apply Passes.cons h.1.1
    rw [h.1.2]
    exact ih h.2

theorem next_parentheses (ho : c ≠ '(') (hc : c ≠ ')') (depth : Nat) :
    (Within.parentheses depth).next c = .parentheses depth := by
  rw [Within.next.eq_def]
  simp only [if_neg ho, if_neg hc]

theorem passes_balanced (h : Balanced '(' ')' t) (depth : Nat) :
    Passes (.parentheses depth) t (.parentheses depth) := by
  have hin : ∀ d, Within.parentheses d ≠ .nothing := by simp
  -- the depth varies: a group is passed one parenthesis deeper than what stands around it
  induction h generalizing depth with
  | nil => exact passes_nil _
  | @char c s ho hc _ ih =>
    apply Passes.cons (Or.inl (hin _))
    rw [next_parentheses ho hc]
    exact ih depth
  | @group inner s _ _ ihi ihs =>
    have hclose : Passes (.parentheses (depth + 1)) (')' :: s) (.parentheses depth) :=
      .cons (Or.inl (hin _)) (ihs depth)
    exact .cons (Or.inl (hin _)) ((ihi (depth + 1)).append hclose)

theorem passes_bare (h : IsBare t) : Passes .nothing t .nothing := by
  induction h with
  | nil => exact passes_nil _
  | @char c s hc _ ih =>
    have hplain : c ≠ ',' ∧ c ≠ '"' ∧ c ≠ '(' := by
      refine ⟨?_, ?_, ?_⟩ <;> rintro rfl <;> cases hc
    apply Passes.cons (Or.inr hplain.1)
    rw [Within.next, if_neg hplain.2.1, if_neg hplain.2.2]
    exact ih
  | @group inner s hi _ ih =>
    have hclose : Passes (.parentheses 0) (')' :: s) .nothing := .cons (Or.inl (by simp)) ih
    exact .cons (Or.inr (by decide)) ((passes_balanced hi 0).append hclose)

theorem passes_segment {a : Segment} (h : a.IsWritten t) : Passes .nothing t .nothing := by
  cases h with
  | @quoted text hmem =>
    have htext : Passes .quotes text .quotes := by
      apply passes_of_forall
      intro c hc
      refine ⟨Or.inl (by simp), if_neg ?_⟩
      rintro rfl
      exact hmem hc
    exact .cons (Or.inr (by decide)) (htext.append (passes_char (Or.inl (by simp))))
  | bare _ hbare => exact passes_bare hbare

/-- Blanks at its ends do not matter for a text. -/
theorem passes_of_strip (h : Passes .nothing (strip isSpace t) .nothing) :
    Passes .nothing t .nothing := by
  obtain ⟨u, v, hu, hv, ht⟩ := Text.exists_strip isSpace t
  rw [ht]
  exact (passes_bare (isBare_of_spaces hu)).append (h.append (passes_bare (isBare_of_spaces hv)))

theorem passes_slot {pairs : Bool} {slot : Slot} (h : slot.IsWritten pairs t) :
    Passes .nothing t .nothing := by
  cases h with
  | blank h =>
    apply passes_of_strip
    rw [h]
    exact passes_nil _
  | one h => exact passes_of_strip (passes_segment h)
  | two _ hl hp =>
    have hbar := Passes.cons (w := .nothing) (c := '|') (Or.inr (by decide))
      (passes_of_strip (passes_segment hp))
    exact (passes_of_strip (passes_segment hl)).append hbar

theorem slotTexts_of_passes (h : Passes .nothing t .nothing) : slotTexts .nothing t = [t] := by
  have := h []
  rwa [List.append_nil, slotTexts, List.modifyHead_cons, List.append_nil] at this

theorem slotTexts_append_comma (h : Passes .nothing t .nothing) (rest : List Char) :
    slotTexts .nothing (t ++ ',' :: rest) = t :: slotTexts .nothing rest := by
  rw [h, slotTexts, if_pos ⟨rfl, rfl⟩, List.modifyHead_cons, List.append_nil]

/-- **Slots can be told apart in one way only.**  Texts of slots that make up a text with commas
between them are its texts between top-level commas. -/
theorem forall₂_slotTexts_iff {pairs : Bool} {entries : List Entry} :
    List.Forall₂ (Asks pairs) (slotTexts .nothing s) entries ↔
      ∃ texts, texts ≠ [] ∧ s = [','].intercalate texts ∧
        List.Forall₂ (Asks pairs) texts entries := by
  constructor
  · intro h
    obtain ⟨t, ts, hts, -⟩ := exists_slotTexts .nothing s
    exact ⟨slotTexts .nothing s, by rw [hts]; exact List.cons_ne_nil t ts,
      (intercalate_slotTexts _ s).symm, h⟩
  · rintro ⟨texts, hne, rfl, h⟩
    suffices slotTexts .nothing ([','].intercalate texts) = texts by rwa [this]
    induction h with
    | nil => exact absurd rfl hne
    | @cons t e ts entries hasks hrest ih =>
      have hpasses : Passes .nothing t .nothing := passes_slot hasks.choose_spec.1
      cases ts with
      | nil => rw [List.intercalate_singleton, slotTexts_of_passes hpasses]
      | cons t' ts =>
        rw [List.intercalate_cons_cons, List.append_assoc, List.singleton_append,
          slotTexts_append_comma hpasses, ih (List.cons_ne_nil _ _)]

end

/-! ## Reading the slots -/

section

variable {pairs : Bool} {read : List Char → SlotRead}

theorem readSlots_comma {s rest : List Char} (h : (read s).rest = ',' :: rest) (fuel : Nat) :
    readSlots read (fuel + 1) s =
      ((read s).slot :: (readSlots read fuel rest).1, (readSlots read fuel rest).2) := by
  rw [readSlots]
  generalize read s = found at h
  obtain ⟨slot, rest', missing⟩ := found
  subst h
  rfl

theorem readSlots_end {s : List Char} (h : ∀ rest, (read s).rest ≠ ',' :: rest) (fuel : Nat) :
    readSlots read (fuel + 1) s = ([(read s).slot], (read s).rest, (read s).missing) := by
  rw [readSlots]
  generalize read s = found at h
  obtain ⟨slot, rest', missing⟩ := found
  split
  next more _ heq =>
    cases heq
    exact absurd rfl (h more)
  next heq =>
    cases heq
    rfl

theorem forall₂_of_readSlots (hread : ReadsSlots pairs read) {fuel : Nat} {s : List Char}
    (hend : (readSlots read fuel s).2.1 = []) (hf : s.length < fuel) :
    List.Forall₂ (Asks pairs) (slotTexts .nothing s)
      ((readSlots read fuel s).1.map Slot.entry) := by
  induction fuel generalizing s with
  | zero => omega
  | succ fuel ih =>
    obtain ⟨t, hs, hasks⟩ := hread.sound s
    have hpasses : Passes .nothing t .nothing := passes_slot hasks.choose_spec.1
    by_cases hcomma : ∃ rest, (read s).rest = ',' :: rest
    · obtain ⟨rest, hrest⟩ := hcomma
      rw [readSlots_comma hrest] at hend ⊢
      rw [hrest] at hs
      have hlength := congrArg List.length hs
      simp only [List.length_append, List.length_cons] at hlength
      -- `read s` mentions `s` too, and only the text that is cut may be rewritten
      conv => arg 2; rw [hs]
      rw [slotTexts_append_comma hpasses, List.map_cons]
      exact .cons hasks (ih hend (by omega))
    · rw [readSlots_end fun rest h => hcomma ⟨rest, h⟩] at hend ⊢
      have hnil : (read s).rest = [] := hend
      rw [hnil, List.append_nil] at hs
      conv => arg 2; rw [hs]
      rw [slotTexts_of_passes hpasses]
      exact .cons hasks .nil

theorem readSlots_of_forall₂ (hread : ReadsSlots pairs read) {fuel : Nat} {s : List Char}
    {entries : List Entry} (h : List.Forall₂ (Asks pairs) (slotTexts .nothing s) entries)
    (hf : s.length < fuel) :
    (readSlots read fuel s).2.1 = [] ∧ (readSlots read fuel s).1.map Slot.entry = entries := by
  induction fuel generalizing s entries with
  | zero => omega
  | succ fuel ih =>
    obtain ⟨t, ts, hts, ⟨rfl, rfl⟩ | ⟨rest, rfl, rfl⟩⟩ := exists_slotTexts .nothing s
    · rw [hts] at h
      cases h with
      | cons hasks htail =>
        cases htail
        have hends : EndsSlot [] := by simp [EndsSlot]
        obtain ⟨hrest, hentry⟩ := hread.complete hasks hends
        rw [List.append_nil] at hrest hentry
        rw [readSlots_end (by simp [hrest])]
        exact ⟨hrest, by rw [List.map_singleton, hentry]⟩
    · rw [hts] at h
      cases h with
      | cons hasks htail =>
        have hends : EndsSlot (',' :: rest) := by
          rintro c ⟨⟩
          rfl
        obtain ⟨hrest, hentry⟩ := hread.complete hasks hends
        have hlength : rest.length < fuel := by
          simp only [List.length_append, List.length_cons] at hf
          omega
        obtain ⟨hfinal, hentries⟩ := ih htail hlength
        rw [readSlots_comma hrest]
        exact ⟨hfinal, by rw [List.map_cons, hentry, hentries]⟩

/-- **Slots are read to the end exactly when each text between top-level commas asks for an entry,
and the entries are those, in order.** -/
theorem readSlots_iff (hread : ReadsSlots pairs read) {fuel : Nat} {s : List Char}
    (hf : s.length < fuel) {entries : List Entry} :
    ((readSlots read fuel s).2.1 = [] ∧ (readSlots read fuel s).1.map Slot.entry = entries) ↔
      List.Forall₂ (Asks pairs) (slotTexts .nothing s) entries := by
  constructor
  · rintro ⟨hend, rfl⟩
    exact forall₂_of_readSlots hread hend hf
  · intro h
    exact readSlots_of_forall₂ hread h hf

end

end FreeBody.Composition
