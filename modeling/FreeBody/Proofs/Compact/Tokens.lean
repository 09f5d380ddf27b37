import FreeBody.Compact.Token
import FreeBody.Proofs.Text.Lines

/-!
# Tokens

A section is made up of its tokens and the blanks between them (`Scanner.spells_tokens`).

Texts with a blank between them are tokenized one by one: a text that a scanner reads off the front
of every longer text gives one token, its element (`tokens_join`).  A text that it cannot read gives
a token without an element (`exists_none_of_fails`).
-/

namespace FreeBody.Compact

open Text (Blank Stops isSpace skipSpaces)

/-- What stands behind one of several joined texts: nothing, or a blank and the next one. -/
def EndsText (rest : List Char) : Prop := rest = [] ∨ ∃ more, rest = ' ' :: more

/-- A section is blanks and tokens in turn; those with an element are written as it is. -/
inductive Spells {β : Type} (IsWritten : β → List Char → Prop) :
    List Char → List (Token β) → Prop
  | blank {u : List Char} : Blank u → Spells IsWritten u []
  | element {u text rest : List Char} {e : β} {tokens : List (Token β)} : Blank u →
      IsWritten e text → Spells IsWritten rest tokens →
      Spells IsWritten (u ++ (text ++ rest)) (⟨text, some e⟩ :: tokens)
  | word {u text rest : List Char} {tokens : List (Token β)} : Blank u →
      Spells IsWritten rest tokens →
      Spells IsWritten (u ++ (text ++ rest)) (⟨text, none⟩ :: tokens)

/-- An element is written in the section. -/
theorem Spells.isWritten {β : Type} {IsWritten : β → List Char → Prop} {s : List Char}
    {tokens : List (Token β)} (h : Spells IsWritten s tokens) {token : Token β}
    (htoken : token ∈ tokens) {e : β} (he : token.element = some e) :
    IsWritten e token.text ∧ ∀ c ∈ token.text, c ∈ s := by
  induction h with
  | blank => cases htoken
  | @element u text rest _ _ _ hwritten _ ih =>
    rcases List.mem_cons.1 htoken with rfl | htoken
    · obtain rfl := Option.some.inj he
      exact ⟨hwritten, fun c hc => List.mem_append_right u (List.mem_append_left rest hc)⟩
    · obtain ⟨hlater, hmem⟩ := ih htoken
      exact ⟨hlater, fun c hc =>
        List.mem_append_right u (List.mem_append_right text (hmem c hc))⟩
  | @word u text rest _ _ _ ih =>
    rcases List.mem_cons.1 htoken with rfl | htoken
    · cases he
    · obtain ⟨hlater, hmem⟩ := ih htoken
      exact ⟨hlater, fun c hc =>
        List.mem_append_right u (List.mem_append_right text (hmem c hc))⟩

namespace Scanner

variable {α β : Type} {scanner : Scanner β}

/-! ## One token -/

theorem tokens_of_skipSpaces_eq_nil {s : List Char} (h : skipSpaces s = []) :
    scanner.tokens s = [] := by
  rw [Scanner.tokens]
  split
  next => rfl
  next heq =>
    rw [h] at heq
    cases heq

theorem tokens_of_read {s t rest : List Char} {e : β} (hs : skipSpaces s = t)
    (h : scanner.read? t = some (e, rest)) :
    scanner.tokens s = ⟨t.take (t.length - rest.length), some e⟩ :: scanner.tokens rest := by
  have hshort := scanner.shortens h
  rw [Scanner.tokens]
  split
  next heq =>
    rw [hs] at heq
    rw [heq] at hshort
    exact absurd hshort (Nat.not_lt_zero _)
  next c more heq =>
    obtain rfl : t = c :: more := hs ▸ heq
    split
    next e' rest' hread =>
      rw [h] at hread
      obtain ⟨rfl, rfl⟩ := Prod.mk.inj (Option.some.inj hread)
      rfl
    next hread =>
      rw [h] at hread
      cases hread

theorem tokens_of_unread {s more : List Char} {c : Char} (hs : skipSpaces s = c :: more)
    (h : scanner.read? (c :: more) = none) :
    scanner.tokens s = ⟨c :: more.takeWhile (!isSpace ·), none⟩ ::
      scanner.tokens (more.dropWhile (!isSpace ·)) := by
  rw [Scanner.tokens]
  split
  next heq => exact absurd (hs.symm.trans heq) (List.cons_ne_nil _ _)
  next heq =>
    obtain ⟨rfl, rfl⟩ := List.cons.inj (hs.symm.trans heq)
    split
    next hread =>
      rw [h] at hread
      cases hread
    next => rfl

/-- Separators in front do not matter. -/
theorem tokens_congr {s t : List Char} (h : skipSpaces s = skipSpaces t) :
    scanner.tokens s = scanner.tokens t := by
  rcases ht : skipSpaces t with _ | ⟨c, more⟩
  · rw [tokens_of_skipSpaces_eq_nil (h.trans ht), tokens_of_skipSpaces_eq_nil ht]
  · rcases hread : scanner.read? (c :: more) with _ | ⟨e, rest⟩
    · rw [tokens_of_unread (h.trans ht) hread, tokens_of_unread ht hread]
    · rw [tokens_of_read (h.trans ht) hread, tokens_of_read ht hread]

theorem spells_tokens {IsWritten : β → List Char → Prop}
    (hsound : ∀ {s rest : List Char} {e : β}, scanner.read? s = some (e, rest) →
      ∃ text, IsWritten e text ∧ s = text ++ rest)
    (s : List Char) : Spells IsWritten s (scanner.tokens s) := by
  have hfront (s : List Char) : ∃ u, Blank u ∧ s = u ++ skipSpaces s := by
    obtain ⟨u, hu, hs⟩ := Text.exists_skipSpaces s
    exact ⟨u, fun c hc => Text.isBlank_of_isSpace (hu c hc), hs⟩
  fun_induction Scanner.tokens scanner s with
  | case1 s hs =>
    obtain ⟨u, hu, hcut⟩ := hfront s
    rw [hcut, hs, List.append_nil]
    exact .blank hu
  | case2 s c more hs e rest hread ih =>
    obtain ⟨u, hu, hcut⟩ := hfront s
    obtain ⟨text, htext, hfound⟩ := hsound hread
    rw [hcut, hs, hfound, List.length_append, Nat.add_sub_cancel, List.take_left]
    exact .element hu htext ih
  | case3 s c more hs _ ih =>
    obtain ⟨u, hu, hcut⟩ := hfront s
    have hword : s = u ++ ((c :: more.takeWhile (!isSpace ·)) ++ more.dropWhile (!isSpace ·)) := by
      rw [List.cons_append, List.takeWhile_append_dropWhile, ← hs, ← hcut]
    rw [hword]
    exact .word hu ih

/-! ## Joined texts -/

/-- Whether the scanner reads the text off the front of every longer one. -/
structure Reads (scanner : Scanner β) (text : List Char) (e : β) : Prop where
  start : ∀ rest, Stops isSpace (text ++ rest)
  read : ∀ rest, EndsText rest → scanner.read? (text ++ rest) = some (e, rest)

/-- Whether the scanner can read nothing off the front of a text that begins with this one. -/
structure Fails (scanner : Scanner β) (text : List Char) : Prop where
  ne_nil : text ≠ []
  start : ∀ rest, Stops isSpace (text ++ rest)
  read : ∀ rest, scanner.read? (text ++ rest) = none

theorem exists_intercalate_cons (first : List Char) (others : List (List Char)) :
    ∃ rest, EndsText rest ∧ [' '].intercalate (first :: others) = first ++ rest ∧
      skipSpaces rest = skipSpaces ([' '].intercalate others) := by
  cases others with
  | nil => exact ⟨[], Or.inl rfl, by rw [List.intercalate_singleton, List.append_nil], rfl⟩
  | cons second others =>
    refine ⟨' ' :: [' '].intercalate (second :: others), Or.inr ⟨_, rfl⟩, ?_, rfl⟩
    rw [List.intercalate_cons_cons, List.append_assoc]
    rfl

/-- Each of the joined texts gives its element. -/
theorem tokens_join {items : List α} {text : α → List Char} {element : α → β}
    (h : ∀ a ∈ items, scanner.Reads (text a) (element a)) :
    scanner.tokens ([' '].intercalate (items.map text)) =
      items.map fun a => ⟨text a, some (element a)⟩ := by
  induction items with
  | nil => exact tokens_of_skipSpaces_eq_nil rfl
  | cons a items ih =>
    have ha := h a List.mem_cons_self
    obtain ⟨rest, hends, hjoin, hskip⟩ := exists_intercalate_cons (text a) (items.map text)
    rw [List.map_cons, hjoin, tokens_of_read (Text.dropWhile_of_stops (ha.start rest))
      (ha.read rest hends), tokens_congr hskip, ih fun b hb => h b (List.mem_cons_of_mem a hb),
      List.length_append, Nat.add_sub_cancel, List.take_left, List.map_cons]

/-- One text that cannot be read gives a token that is no element. -/
theorem exists_none_of_fails {items : List α} {text : α → List Char}
    (h : ∀ a ∈ items, (∃ e, scanner.Reads (text a) e) ∨ scanner.Fails (text a))
    (hbad : ∃ a ∈ items, scanner.Fails (text a)) :
    ∃ token ∈ scanner.tokens ([' '].intercalate (items.map text)), token.element = none := by
  induction items with
  | nil =>
    obtain ⟨a, ha, -⟩ := hbad
    exact absurd ha List.not_mem_nil
  | cons a items ih =>
    obtain ⟨rest, hends, hjoin, hskip⟩ := exists_intercalate_cons (text a) (items.map text)
    rw [List.map_cons, hjoin]
    rcases h a List.mem_cons_self with ⟨e, ha⟩ | ha
    · -- a text that is read is not the one that is not
      have hlater : ∃ b ∈ items, scanner.Fails (text b) := by
        obtain ⟨b, hb, hfails⟩ := hbad
        rcases List.mem_cons.1 hb with rfl | hb
        · have := (hfails.read []).symm.trans (ha.read [] (Or.inl rfl))
          cases this
        · exact ⟨b, hb, hfails⟩
      obtain ⟨token, htoken, hnone⟩ := ih (fun b hb => h b (List.mem_cons_of_mem a hb)) hlater
      refine ⟨token, ?_, hnone⟩
      rw [tokens_of_read (Text.dropWhile_of_stops (ha.start rest)) (ha.read rest hends),
        tokens_congr hskip]
      exact List.mem_cons_of_mem _ htoken
    · obtain ⟨c, more, hcons⟩ := List.exists_cons_of_ne_nil
        (fun h => ha.ne_nil (List.append_eq_nil_iff.1 h).1 : text a ++ rest ≠ [])
      have hskip : skipSpaces (text a ++ rest) = c :: more := by
        rw [← hcons]
        exact Text.dropWhile_of_stops (ha.start rest)
      rw [tokens_of_unread hskip (hcons ▸ ha.read rest)]
      exact ⟨_, List.mem_cons_self, rfl⟩

end Scanner

end FreeBody.Compact
