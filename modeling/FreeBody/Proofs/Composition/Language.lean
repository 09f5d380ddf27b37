import FreeBody.Proofs.Composition.Slots
import FreeBody.Proofs.Decimal.Digits

/-!
# The language of combinations

A combination is blanks, a tag in any case of its letters, and a text whose pieces between
top-level commas are slots.  `Heads` says which tags there are; only a comparison pairs segments,
and only a grid has a number.

A text is read exactly when it is one, and what is read is the layout of its tag and the entries
that its slots ask for, one for each in order:

    readCombination text = .ok c ↔
      ∃ blanks tag pairs body, Spaces blanks ∧ Heads tag c.layout pairs ∧
        text = blanks ++ (tag ++ body) ∧
          List.Forall₂ (Asks pairs) (slotTexts .nothing body) c.entries  (readCombination_eq_ok_iff)
-/

namespace FreeBody.Composition

open Text (Spaces Stops isSpace skipSpaces)

/-! ## Tags -/

/-- Whether `tag` is a name and a colon, in any case of the letters. -/
def IsTag (name tag : List Char) : Prop := tag.map Char.toLower = name ++ [':']

/-- The tag of a grid with the digits of its number of columns. -/
inductive IsGridTag (ds : List Char) : List Char → Prop
  | mk {name u v : List Char} : IsTag "grid".toList name → Spaces u → ds ≠ [] →
      (∀ c ∈ ds, Decimal.isDigit c = true) → Spaces v →
      IsGridTag ds (name ++ (u ++ (ds ++ (v ++ [':']))))

/-- The tags, with the layout they ask for and whether their slots may hold pairs. -/
inductive Heads : List Char → Layout → Bool → Prop
  | series {tag : List Char} : IsTag "series".toList tag → Heads tag .series false
  | parallel {tag : List Char} : IsTag "parallel".toList tag → Heads tag .parallel false
  | compare {tag : List Char} : IsTag "compare".toList tag → Heads tag (.comparison none) true
  | grid {tag ds : List Char} : IsGridTag ds tag → Heads tag (.grid (columnCount ds)) false

section

variable {name other tag s rest : List Char}

theorem afterTag?_eq_some_iff :
    afterTag? name s = some rest ↔ ∃ tag, IsTag name tag ∧ s = tag ++ rest := by
  unfold afterTag?
  constructor
  · intro h
    by_cases htag : (s.take (name ++ [':']).length).map Char.toLower = name ++ [':']
    · rw [if_pos htag] at h
      obtain rfl := Option.some.inj h
      exact ⟨_, htag, (List.take_append_drop _ s).symm⟩
    · rw [if_neg htag] at h
      cases h
  · rintro ⟨tag, htag, rfl⟩
    have hlength : (name ++ [':']).length = tag.length := by rw [← htag, List.length_map]
    have htag' : tag.map Char.toLower = name ++ [':'] := htag
    simp only [hlength, List.take_left, List.drop_left, htag', if_true]

/-- A text does not begin with two tags whose names begin differently. -/
theorem IsTag.afterTag?_eq_none (h : IsTag name tag)
    (hne : (other ++ [':']).head? ≠ (name ++ [':']).head?) (rest : List Char) :
    afterTag? other (tag ++ rest) = none := by
  rw [Option.eq_none_iff_forall_ne_some]
  intro after hafter
  obtain ⟨tag', htag', heq⟩ := afterTag?_eq_some_iff.1 hafter
  unfold IsTag at h htag'
  rw [← h, ← htag'] at hne
  cases tag with
  | nil => cases name <;> cases h
  | cons c tag =>
    cases tag' with
    | nil => cases other <;> cases htag'
    | cons d tag' =>
      obtain ⟨rfl, -⟩ := List.cons.inj heq
      exact hne rfl

theorem toLower_of_isSpace {c : Char} (h : isSpace c = true) : c.toLower = c := by
  simp only [isSpace, Bool.or_eq_true, beq_iff_eq] at h
  rcases h with ((rfl | rfl) | rfl) | rfl <;> rfl

theorem IsTag.stops (h : IsTag name tag) (hn : Stops isSpace (name ++ [':'])) (rest : List Char) :
    Stops isSpace (tag ++ rest) := by
  unfold IsTag at h
  cases tag with
  | nil => cases name <;> cases h
  | cons c tag =>
    rw [List.cons_append, Text.stops_cons_iff, Bool.eq_false_iff]
    intro hc
    rw [← h, List.map_cons, Text.stops_cons_iff, toLower_of_isSpace hc, hc] at hn
    cases hn

theorem Heads.stops {layout : Layout} {pairs : Bool} (h : Heads tag layout pairs)
    (rest : List Char) : Stops isSpace (tag ++ rest) := by
  cases h with
  | series h => exact h.stops (by decide) rest
  | parallel h => exact h.stops (by decide) rest
  | compare h => exact h.stops (by decide) rest
  | grid h =>
    obtain ⟨h⟩ := h
    rw [List.append_assoc]
    exact h.stops (by decide) _

theorem IsTag.afterTag? (h : IsTag name tag) (rest : List Char) :
    afterTag? name (tag ++ rest) = some rest := afterTag?_eq_some_iff.2 ⟨tag, h, rfl⟩

theorem readHeading_heads {layout : Layout} {pairs : Bool} (h : Heads tag layout pairs)
    (body : List Char) :
    ∃ read, readHeading (tag ++ body) = .layout layout read body ∧ ReadsSlots pairs read := by
  cases h with
  | series h => exact ⟨_, by rw [readHeading, h.afterTag?], readsSlots_readSlot⟩
  | parallel h =>
    refine ⟨_, ?_, readsSlots_readSlot⟩
    rw [readHeading, h.afterTag?_eq_none (by decide), h.afterTag?]
  | compare h =>
    refine ⟨_, ?_, readsSlots_readPair⟩
    rw [readHeading, h.afterTag?_eq_none (by decide), h.afterTag?_eq_none (by decide),
      h.afterTag?]
  | @grid ds h =>
    -- each part ends where the next one starts: neither digits nor a colon are blanks
    obtain @⟨name, u, v, h, hu, hne, hds, hv⟩ := h
    have hcolon : Stops isSpace (':' :: body) := Text.stops_cons_iff.2 rfl
    have hfront : Stops isSpace (ds ++ (v ++ ':' :: body)) := by
      obtain ⟨d, ds, rfl⟩ := List.exists_cons_of_ne_nil hne
      exact Text.stops_cons_iff.2
        (Decimal.isSpace_eq_false_of_isDigit (hds d List.mem_cons_self))
    have hstop : Stops Decimal.isDigit (v ++ ':' :: body) := by
      cases v with
      | nil => exact Text.stops_cons_iff.2 rfl
      | cons c v =>
        rw [List.cons_append, Text.stops_cons_iff, Bool.eq_false_iff]
        intro hdigit
        have := Decimal.isSpace_eq_false_of_isDigit hdigit
        rw [hv c List.mem_cons_self] at this
        cases this
    have hassoc : name ++ (u ++ (ds ++ (v ++ [':']))) ++ body =
        name ++ (u ++ (ds ++ (v ++ ':' :: body))) := by simp
    refine ⟨_, ?_, readsSlots_readSlot⟩
    rw [hassoc, readHeading, h.afterTag?_eq_none (by decide), h.afterTag?_eq_none (by decide),
      h.afterTag?_eq_none (by decide), h.afterTag?]
    simp only [Text.skipSpaces_append hu, Text.skipSpaces_of_stops hfront,
      Text.takeWhile_append_of_stops hds hstop, Text.dropWhile_append_of_stops hds hstop,
      Text.skipSpaces_append hv, Text.skipSpaces_of_stops hcolon, List.isEmpty_iff, if_neg hne]

theorem heads_of_readHeading {layout : Layout} {read : List Char → SlotRead} {body : List Char}
    (h : readHeading s = .layout layout read body) :
    ∃ tag pairs, Heads tag layout pairs ∧ s = tag ++ body := by
  unfold readHeading at h
  split at h
  next rest hseries =>
    cases h
    obtain ⟨tag, htag, hs⟩ := afterTag?_eq_some_iff.1 hseries
    exact ⟨tag, _, .series htag, hs⟩
  next =>
  split at h
  next rest hparallel =>
    cases h
    obtain ⟨tag, htag, hs⟩ := afterTag?_eq_some_iff.1 hparallel
    exact ⟨tag, _, .parallel htag, hs⟩
  next =>
  split at h
  next rest hcompare =>
    cases h
    obtain ⟨tag, htag, hs⟩ := afterTag?_eq_some_iff.1 hcompare
    exact ⟨tag, _, .compare htag, hs⟩
  next =>
  split at h
  next rest hgrid =>
    obtain ⟨tag, htag, rfl⟩ := afterTag?_eq_some_iff.1 hgrid
    obtain ⟨u, hu, hrest⟩ := Text.exists_skipSpaces rest
    generalize skipSpaces rest = front at h hrest
    dsimp only at h
    split at h
    next => cases h
    next hdigits =>
    split at h
    next slots hslots =>
      cases h
      obtain ⟨v, hv, hbehind⟩ := Text.exists_skipSpaces (front.dropWhile Decimal.isDigit)
      rw [hslots] at hbehind
      refine ⟨_, _, .grid (.mk htag hu (by simpa using hdigits)
        (List.all_eq_true.1 List.all_takeWhile) hv), ?_⟩
      conv => lhs; rw [hrest, ← List.takeWhile_append_dropWhile (p := Decimal.isDigit) (l := front)]
      rw [hbehind]
      simp
    next => cases h
  next => cases h

/-! ## Combinations -/

/-- Behind a tag, a text is read exactly when its pieces are slots. -/
theorem readCombination_heads {blanks body : List Char} {layout : Layout} {pairs : Bool}
    {c : Combination} (hblanks : Spaces blanks) (h : Heads tag layout pairs) :
    readCombination (blanks ++ (tag ++ body)) = .ok c ↔
      c.layout = layout ∧ List.Forall₂ (Asks pairs) (slotTexts .nothing body) c.entries := by
  obtain ⟨read, hheading, hread⟩ := readHeading_heads h body
  rw [← readSlots_iff hread (Nat.lt_succ_self body.length)]
  have hskip : skipSpaces (blanks ++ (tag ++ body)) = tag ++ body := by
    rw [Text.skipSpaces_append hblanks, Text.skipSpaces_of_stops (h.stops body)]
  rw [readCombination]
  simp only [hskip, hheading]
  obtain ⟨entryLayout, entries⟩ := c
  generalize readSlots read (body.length + 1) body = found
  obtain ⟨slots, rest, missing⟩ := found
  cases rest with
  | nil =>
    simp only [Except.ok.injEq, Combination.mk.injEq, true_and]
    exact and_congr_left fun _ => eq_comm
  | cons c rest => simp

theorem heads_of_readCombination {text : List Char} {c : Combination}
    (h : readCombination text = .ok c) :
    ∃ blanks tag layout pairs body, Spaces blanks ∧ Heads tag layout pairs ∧
      text = blanks ++ (tag ++ body) := by
  obtain ⟨blanks, hblanks, htext⟩ := Text.exists_skipSpaces text
  rw [readCombination] at h
  cases hheading : readHeading (skipSpaces text) with
  | noColumns place => simp [hheading] at h
  | none => simp [hheading] at h
  | layout layout read body =>
    obtain ⟨tag, pairs, hheads, hs⟩ := heads_of_readHeading hheading
    exact ⟨blanks, tag, layout, pairs, body, hblanks, hheads, by rw [htext, hs]⟩

end

/-- **The language of combinations.** -/
theorem readCombination_eq_ok_iff {text : List Char} {c : Combination} :
    readCombination text = .ok c ↔
      ∃ blanks tag pairs body, Spaces blanks ∧ Heads tag c.layout pairs ∧
        text = blanks ++ (tag ++ body) ∧
          List.Forall₂ (Asks pairs) (slotTexts .nothing body) c.entries := by
  constructor
  · intro h
    obtain ⟨blanks, tag, layout, pairs, body, hblanks, hheads, rfl⟩ := heads_of_readCombination h
    obtain ⟨rfl, hentries⟩ := (readCombination_heads hblanks hheads).1 h
    exact ⟨blanks, tag, pairs, body, hblanks, hheads, rfl, hentries⟩
  · rintro ⟨blanks, tag, pairs, body, hblanks, hheads, rfl, hentries⟩
    exact (readCombination_heads hblanks hheads).2 ⟨rfl, hentries⟩

end FreeBody.Composition
