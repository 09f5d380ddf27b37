import FreeBody.Composition.Reader
import FreeBody.Proofs.Text.Bracket
import FreeBody.Proofs.Text.Lines

/-!
# What a slot of a combination says

A slot is written as blanks, as a segment between blanks or, in a comparison, as two such with a
bar between them (`Slot.IsWritten`).  The text of a slot asks for an entry when it is written as a
slot that asks for it (`Asks`).

The two readers of slots find exactly that: what they take from the front of a text asks for the
entry that they return, and a text that asks for an entry is taken whole, whatever slots follow
(`readsSlots_readSlot`, `readsSlots_readPair`).
-/

namespace FreeBody.Composition

open Text (Balanced Spaces Stops isSpace skipSpaces strip trim)

/-! ## Bare text -/

/-- Whether `c` stands in bare text only inside parentheses. -/
def isMark (c : Char) : Bool := endsBare c || c == '('

/-- Bare text: marks stand in groups of parentheses only. -/
inductive IsBare : List Char → Prop
  | nil : IsBare []
  | char {c : Char} {s : List Char} : isMark c = false → IsBare s → IsBare (c :: s)
  | group {inner s : List Char} : Balanced '(' ')' inner → IsBare s →
      IsBare ('(' :: (inner ++ ')' :: s))

section

variable {s t u v rest : List Char} {c : Char}

theorem isMark_eq_false_iff : isMark c = false ↔ endsBare c = false ∧ c ≠ '(' := by
  unfold isMark
  rw [Bool.or_eq_false_iff, beq_eq_false_iff_ne]

theorem isMark_of_isSpace (h : isSpace c = true) : isMark c = false := by
  simp only [isSpace, Bool.or_eq_true, beq_iff_eq] at h
  rcases h with ((rfl | rfl) | rfl) | rfl <;> decide

theorem isBare_of_forall (h : ∀ c ∈ s, isMark c = false) : IsBare s := by
  induction s with
  | nil => exact .nil
  | cons c s ih =>
    rw [List.forall_mem_cons] at h
    exact .char h.1 (ih h.2)

theorem isBare_of_spaces (h : Spaces s) : IsBare s :=
  isBare_of_forall fun c hc => isMark_of_isSpace (h c hc)

theorem IsBare.append (hs : IsBare s) (ht : IsBare t) : IsBare (s ++ t) := by
  induction hs with
  | nil => exact ht
  | char hc _ ih => exact .char hc ih
  | @group inner s hi _ ih => simpa using IsBare.group hi ih

theorem IsBare.of_cons (h : IsBare (c :: s)) (hc : c ≠ '(') : IsBare s := by
  generalize ht : c :: s = t at h
  cases h with
  | nil => cases ht
  | char _ h =>
    obtain ⟨-, rfl⟩ := List.cons.inj ht
    exact h
  | group => exact absurd (List.cons.inj ht).1 hc

theorem IsBare.of_spaces_append (h : IsBare (u ++ s)) (hu : Spaces u) : IsBare s := by
  induction u with
  | nil => exact h
  | cons c u ih =>
    rw [Spaces, List.forall_mem_cons] at hu
    refine ih (h.of_cons ?_) hu.2
    rintro rfl
    exact absurd hu.1 (by decide)

theorem IsBare.of_append_spaces (h : IsBare (s ++ v)) (hv : Spaces v) : IsBare s := by
  generalize ht : s ++ v = t at h
  induction h generalizing s with
  | nil =>
    rw [(List.append_eq_nil_iff.1 ht).1]
    exact .nil
  | char hc _ ih =>
    cases s with
    | nil => exact .nil
    | cons d s =>
      obtain ⟨rfl, htail⟩ := List.cons.inj ht
      exact .char hc (ih htail)
  | @group inner more hi _ ih =>
    cases s with
    | nil => exact .nil
    | cons d s =>
      obtain ⟨rfl, htail⟩ := List.cons.inj ht
      rcases List.append_eq_append_iff.1 htail with ⟨m, rfl, hm⟩ | ⟨m, rfl, hm⟩
      · -- the closing parenthesis would be one of the blanks
        have : ')' ∈ v := hm ▸ List.mem_append_right m List.mem_cons_self
        exact absurd (hv _ this) (by decide)
      · cases m with
        | nil =>
          rw [List.nil_append] at hm
          have : ')' ∈ v := hm ▸ List.mem_cons_self
          exact absurd (hv _ this) (by decide)
        | cons e m =>
          obtain ⟨rfl, hrest⟩ := List.cons.inj hm
          exact .group hi (ih hrest.symm)

theorem IsBare.strip (h : IsBare t) : IsBare (strip isSpace t) := by
  obtain ⟨u, v, hu, hv, ht⟩ := Text.exists_strip isSpace t
  rw [ht] at h
  exact (h.of_spaces_append hu).of_append_spaces hv

theorem bareText_char (h : isMark c = false) (rest : List Char) :
    bareText (c :: rest) = (c :: (bareText rest).1, (bareText rest).2) := by
  obtain ⟨hends, hparen⟩ := isMark_eq_false_iff.1 h
  rw [bareText, if_neg hparen, if_neg (by simp [hends])]

theorem bareText_group {inner : List Char} (h : Balanced '(' ')' inner) (rest : List Char) :
    bareText ('(' :: (inner ++ ')' :: rest)) =
      ('(' :: (inner ++ ')' :: (bareText rest).1), (bareText rest).2) := by
  have hclosing : Text.toClosing '(' ')' 0 (inner ++ ')' :: rest) = some (inner, rest) :=
    (Text.toClosing_eq_some_iff (by decide)).2 ⟨rfl, h⟩
  rw [bareText, if_pos rfl]
  split
  next content after heq =>
    rw [hclosing] at heq
    obtain ⟨rfl, rfl⟩ := Prod.mk.inj (Option.some.inj heq)
    rfl
  next heq =>
    rw [hclosing] at heq
    cases heq

/-- Bare text is read whole, whatever follows. -/
theorem IsBare.bareText_append (h : IsBare t) (rest : List Char) :
    bareText (t ++ rest) = (t ++ (bareText rest).1, (bareText rest).2) := by
  induction h with
  | nil => rfl
  | char hc _ ih => rw [List.cons_append, bareText_char hc, ih]; rfl
  | @group inner s hi _ ih =>
    have hassoc : '(' :: (inner ++ ')' :: s) ++ rest = '(' :: (inner ++ ')' :: (s ++ rest)) := by
      simp
    rw [hassoc, bareText_group hi, ih]
    simp

/-- What is read is bare text. -/
theorem isBare_bareText (s : List Char) :
    IsBare (bareText s).1 ∧ s = (bareText s).1 ++ (bareText s).2 := by
  fun_induction bareText s with
  | case1 => exact ⟨.nil, rfl⟩
  | case2 rest content after hclosing more final hmore ih =>
    rw [hmore] at ih
    obtain ⟨rfl, hbalanced⟩ := (Text.toClosing_eq_some_iff (by decide)).1 hclosing
    refine ⟨?_, ?_⟩
    · simpa using IsBare.group hbalanced ih.1
    · simpa using ih.2
  | case3 => exact ⟨.nil, rfl⟩
  | case4 => exact ⟨.nil, rfl⟩
  | case5 c rest hparen hends more final hmore ih =>
    rw [hmore] at ih
    refine ⟨.char (isMark_eq_false_iff.2 ⟨by simpa using hends, hparen⟩) ih.1, ?_⟩
    rw [List.cons_append, ← ih.2]

/-! ## Segments -/

/-- How a segment is written. -/
inductive Segment.IsWritten : Segment → List Char → Prop
  | quoted {text : List Char} : '"' ∉ text → IsWritten (.quoted text) ('"' :: (text ++ ['"']))
  | bare {text : List Char} : text ≠ [] → IsBare text → IsWritten (.bare text) text

/-- Whether a segment ends in front of `rest`. -/
def Ends (rest : List Char) : Prop := ∀ c ∈ rest.head?, c = ',' ∨ c = '|'

theorem Ends.stops (h : Ends rest) : Stops isSpace rest := by
  intro c hc
  rcases h c hc with rfl | rfl <;> rfl

theorem Ends.bareText_eq (h : Ends rest) : bareText rest = ([], rest) := by
  cases rest with
  | nil => rw [bareText]
  | cons c rest =>
    rcases h c rfl with rfl | rfl <;> rw [bareText, if_neg (by decide), if_pos (by decide)]

theorem segment?_of_stops (h : Stops (· == '"') s) :
    segment? s =
      if (bareText s).1.isEmpty then none else some (.bare (bareText s).1, (bareText s).2) := by
  unfold segment?
  split
  next => exact absurd (Text.stops_cons_iff.1 h) (by decide)
  next => rfl

theorem Ends.segment?_eq_none (h : Ends rest) : segment? rest = none := by
  have hquote : Stops (· == '"') rest := by
    intro c hc
    rcases h c hc with rfl | rfl <;> rfl
  rw [segment?_of_stops hquote, h.bareText_eq]
  rfl

theorem quotedText?_eq_some_iff {text : List Char} :
    quotedText? s = some (text, rest) ↔ '"' ∉ text ∧ s = text ++ '"' :: rest := by
  constructor
  · intro h
    unfold quotedText? at h
    split at h
    next => cases h
    next c more hdrop =>
      obtain ⟨rfl, rfl⟩ := Prod.mk.inj (Option.some.inj h)
      have hc := Text.stops_dropWhile (· != '"') s
      rw [hdrop, Text.stops_cons_iff] at hc
      obtain rfl : c = '"' := by simpa using hc
      refine ⟨fun hmem => ?_, ?_⟩
      · simpa using List.mem_takeWhile_imp hmem
      · rw [← hdrop, List.takeWhile_append_dropWhile]
  · rintro ⟨hmem, rfl⟩
    have htext : ∀ c ∈ text, (c != '"') = true := by
      intro c hc
      rw [bne_iff_ne]
      rintro rfl
      exact hmem hc
    have hstop : Stops (· != '"') ('"' :: rest) := Text.stops_cons_iff.2 rfl
    rw [quotedText?, Text.dropWhile_append_of_stops htext hstop,
      Text.takeWhile_append_of_stops htext hstop]

theorem segment?_eq_some {a : Segment} (h : segment? s = some (a, rest)) :
    ∃ t, a.IsWritten t ∧ s = t ++ rest := by
  by_cases hquote : Stops (· == '"') s
  · rw [segment?_of_stops hquote] at h
    by_cases hempty : (bareText s).1.isEmpty = true
    · rw [if_pos hempty] at h
      cases h
    · rw [if_neg hempty] at h
      obtain ⟨rfl, rfl⟩ := Prod.mk.inj (Option.some.inj h)
      obtain ⟨hbare, hs⟩ := isBare_bareText s
      exact ⟨_, .bare (by simpa using hempty) hbare, hs⟩
  · cases s with
    | nil => exact absurd (Text.stops_nil _) hquote
    | cons c s =>
      rw [Text.stops_cons_iff, Bool.not_eq_false, beq_iff_eq] at hquote
      subst hquote
      obtain ⟨⟨text, after⟩, hq, hp⟩ := Option.map_eq_some_iff.1 h
      obtain ⟨rfl, rfl⟩ := Prod.mk.inj hp
      obtain ⟨hmem, rfl⟩ := quotedText?_eq_some_iff.1 hq
      exact ⟨_, .quoted hmem, by simp⟩

theorem trim_strip (t : List Char) : trim (strip isSpace t) = trim t := by
  obtain ⟨u, v, hu, hv, ht⟩ := Text.exists_strip isSpace t
  conv => rhs; rw [ht]
  rw [Text.trim_blank_append fun c hc => Text.isBlank_of_isSpace (hu c hc),
    Text.trim_append_blank fun c hc => Text.isBlank_of_isSpace (hv c hc)]

/-- A segment between blanks is found, whatever follows its slot or its bar. -/
theorem segment?_written {a : Segment} (h : a.IsWritten (strip isSpace t)) (hr : Ends rest) :
    ∃ a' after, segment? (skipSpaces (t ++ rest)) = some (a', after) ∧
      skipSpaces after = rest ∧ a'.text = a.text := by
  obtain ⟨u, v, hu, hv, ht⟩ := Text.exists_strip isSpace t
  have hstop := (Text.stops_strip isSpace t).1
  generalize hw : strip isSpace t = w at h ht hstop
  have hne : w ≠ [] := by cases h <;> simp_all
  have hskip : skipSpaces (t ++ rest) = w ++ (v ++ rest) := by
    rw [ht, List.append_assoc, Text.skipSpaces_append hu, List.append_assoc,
      Text.skipSpaces_of_stops (Text.stops_append hne hstop _)]
  rw [hskip]
  cases h with
  | @quoted text hmem =>
    have hq : quotedText? (text ++ '"' :: (v ++ rest)) = some (text, v ++ rest) :=
      quotedText?_eq_some_iff.2 ⟨hmem, rfl⟩
    refine ⟨.quoted text, v ++ rest, ?_, ?_, rfl⟩
    · rw [List.cons_append, List.append_assoc, List.singleton_append, segment?, hq]
      rfl
    · rw [Text.skipSpaces_append hv, Text.skipSpaces_of_stops hr.stops]
  | bare _ hbare =>
    -- the blanks behind bare text are read as a part of it
    have hread : bareText (w ++ (v ++ rest)) = (w ++ v, rest) := by
      rw [← List.append_assoc, (hbare.append (isBare_of_spaces hv)).bareText_append,
        hr.bareText_eq, List.append_nil]
    have hquote : Stops (· == '"') (w ++ (v ++ rest)) := by
      apply Text.stops_append hne
      cases hbare with
      | nil => exact absurd rfl hne
      | char hc _ =>
        apply Text.stops_cons_iff.2
        rw [beq_eq_false_iff_ne]
        rintro rfl
        cases hc
      | group => exact Text.stops_cons_iff.2 rfl
    refine ⟨.bare (w ++ v), rest, ?_, Text.skipSpaces_of_stops hr.stops, ?_⟩
    · rw [segment?_of_stops hquote, hread, if_neg (by simp [hne])]
    · exact Text.trim_append_blank (fun c hc => Text.isBlank_of_isSpace (hv c hc)) w

/-- What is found is a segment between blanks. -/
theorem segment?_sound {a : Segment} (h : segment? (skipSpaces s) = some (a, rest)) :
    ∃ (t : List Char) (a' : Segment), s = t ++ skipSpaces rest ∧
      a'.IsWritten (strip isSpace t) ∧ a'.text = a.text := by
  obtain ⟨u, hu, hs⟩ := Text.exists_skipSpaces s
  obtain ⟨v, hv, hrest⟩ := Text.exists_skipSpaces rest
  obtain ⟨w, hw, hskip⟩ := segment?_eq_some h
  have hcut : s = u ++ (w ++ v) ++ skipSpaces rest := by
    conv => lhs; rw [hs, hskip, hrest]
    simp
  cases hw with
  | @quoted text hmem =>
    have hstrip : strip isSpace (u ++ ('"' :: (text ++ ['"']) ++ v)) = '"' :: (text ++ ['"']) := by
      apply Text.strip_surround hu hv
      · exact Text.stops_cons_iff.2 rfl
      · simp only [List.reverse_cons, List.reverse_append, List.reverse_nil, List.nil_append,
          List.cons_append]
        exact Text.stops_cons_iff.2 rfl
    exact ⟨_, .quoted text, hcut, hstrip.symm ▸ .quoted hmem, rfl⟩
  | bare hne hbare =>
    obtain ⟨a, b, ha, hb, hw⟩ := Text.exists_strip isSpace w
    have hstop := Text.stops_strip isSpace w
    have hstrip : strip isSpace (u ++ (w ++ v)) = strip isSpace w := by
      have hassoc : u ++ (w ++ v) = (u ++ a) ++ (strip isSpace w ++ (b ++ v)) := by
        conv => lhs; rw [hw]
        simp
      rw [hassoc]
      exact Text.strip_surround (List.forall_mem_append.2 ⟨hu, ha⟩)
        (List.forall_mem_append.2 ⟨hb, hv⟩) hstop.1 hstop.2
    have hne' : strip isSpace w ≠ [] := by
      intro hnil
      -- then the segment would be nothing but blanks, and those are skipped
      rw [hnil, List.nil_append] at hw
      have hfront := Text.stops_skipSpaces s
      rw [hskip] at hfront
      obtain ⟨c, cs, rfl⟩ := List.exists_cons_of_ne_nil hne
      have hc : isSpace c = false := Text.stops_cons_iff.1 hfront
      have hmem : c ∈ a ++ b := hw ▸ List.mem_cons_self
      have : isSpace c = true := List.forall_mem_append.2 ⟨ha, hb⟩ c hmem
      rw [hc] at this
      cases this
    exact ⟨_, .bare (strip isSpace w), hcut, hstrip.symm ▸ .bare hne' hbare.strip,
      (trim_strip _).trans (by rw [Segment.text])⟩

theorem Segment.entry_congr {a a' : Segment} (h : a'.text = a.text) : a'.entry = a.entry := by
  unfold Segment.entry
  rw [h]

/-- Text without a parenthesis is the name of a preset. -/
theorem Segment.entry_of_name {a : Segment} (h : '(' ∉ a.text) :
    a.entry = { preset := String.ofList (trim a.text) } := by
  have hname : ∀ c ∈ trim a.text, (c != '(') = true := by
    intro c hc
    rw [bne_iff_ne]
    rintro rfl
    obtain ⟨u, v, -, -, htext⟩ := Text.exists_trim a.text
    exact h (htext ▸ List.mem_append_right u (List.mem_append_left v hc))
  have hnone : (trim a.text).dropWhile (· != '(') = [] := List.dropWhile_eq_nil_iff.2 hname
  simp only [Segment.entry, hnone]

/-- A call has for arguments what stands between its first parenthesis and the last one, and for
a name what stands in front, without the blanks around it. -/
theorem Segment.entry_of_call {a : Segment} {name raw : List Char} (hname : '(' ∉ name)
    (h : a.text = name ++ '(' :: (raw ++ [')'])) :
    a.entry = { preset := String.ofList (trim name), args := Argument.readAll raw } := by
  obtain ⟨u, n, hu, hfront, rfl⟩ : ∃ u n, Text.Blank u ∧ Stops Text.isBlank n ∧ name = u ++ n :=
    ⟨_, _, fun _ hc => List.mem_takeWhile_imp hc, Text.stops_dropWhile Text.isBlank name,
      List.takeWhile_append_dropWhile.symm⟩
  have hstart : Stops Text.isBlank (n ++ '(' :: (raw ++ [')'])) := by
    cases n with
    | nil => exact Text.stops_cons_iff.2 rfl
    | cons c n => exact Text.stops_append (List.cons_ne_nil c n) hfront _
  have hend : Stops Text.isBlank (n ++ '(' :: (raw ++ [')'])).reverse := by
    simp only [List.reverse_append, List.reverse_cons, List.reverse_nil, List.nil_append,
      List.append_assoc, List.cons_append]
    exact Text.stops_cons_iff.2 rfl
  have htrim : trim a.text = n ++ '(' :: (raw ++ [')']) := by
    rw [h, List.append_assoc, Text.trim_blank_append hu, Text.trim_eq_self_of_stops hstart hend]
  have hnoparen : ∀ c ∈ n, (c != '(') = true := by
    intro c hc
    rw [bne_iff_ne]
    rintro rfl
    exact hname (List.mem_append_right u hc)
  have hparen : Stops (· != '(') ('(' :: (raw ++ [')'])) := Text.stops_cons_iff.2 rfl
  rw [Text.trim_blank_append hu]
  simp only [Segment.entry, htrim, Text.dropWhile_append_of_stops hnoparen hparen,
    Text.takeWhile_append_of_stops hnoparen hparen, List.getLast?_concat, List.dropLast_concat,
    if_true]

/-! ## Slots -/

/-- How a slot is written; a bar stands only between two segments that may be paired. -/
inductive Slot.IsWritten (pairs : Bool) : Slot → List Char → Prop
  | blank {t : List Char} : strip isSpace t = [] → IsWritten pairs .blank t
  | one {t : List Char} {a : Segment} : a.IsWritten (strip isSpace t) → IsWritten pairs (.one a) t
  | two {l p : List Char} {label preset : Segment} : pairs = true →
      label.IsWritten (strip isSpace l) → preset.IsWritten (strip isSpace p) →
      IsWritten pairs (.two label preset) (l ++ '|' :: p)

/-- Whether the text of a slot asks for an entry. -/
def Asks (pairs : Bool) (text : List Char) (e : Entry) : Prop :=
  ∃ slot : Slot, slot.IsWritten pairs text ∧ slot.entry = e

/-- Whether another slot or nothing stands behind a slot. -/
def EndsSlot (rest : List Char) : Prop := ∀ c ∈ rest.head?, c = ','

theorem EndsSlot.ends (h : EndsSlot rest) : Ends rest := fun c hc => Or.inl (h c hc)

/-- What a reader of slots finds is what is written. -/
structure ReadsSlots (pairs : Bool) (read : List Char → SlotRead) : Prop where
  sound : ∀ s, ∃ t, s = t ++ (read s).rest ∧ Asks pairs t (read s).slot.entry
  complete : ∀ {t rest : List Char} {e : Entry}, Asks pairs t e → EndsSlot rest →
    (read (t ++ rest)).rest = rest ∧ (read (t ++ rest)).slot.entry = e

theorem readSlot_blank (h : strip isSpace t = []) (hr : Ends rest) :
    readSlot (t ++ rest) = ⟨.blank, rest, some rest⟩ := by
  obtain ⟨u, v, hu, hv, ht⟩ := Text.exists_strip isSpace t
  have hskip : skipSpaces (t ++ rest) = rest := by
    rw [ht, h, List.nil_append, Text.skipSpaces_append (List.forall_mem_append.2 ⟨hu, hv⟩),
      Text.skipSpaces_of_stops hr.stops]
  rw [readSlot, hskip, hr.segment?_eq_none]

theorem readSlot_one {a : Segment} (h : a.IsWritten (strip isSpace t)) (hr : Ends rest) :
    ∃ a', readSlot (t ++ rest) = ⟨.one a', rest, none⟩ ∧ a'.text = a.text := by
  obtain ⟨a', after, hread, hskip, htext⟩ := segment?_written h hr
  exact ⟨a', by rw [readSlot, hread]; simp only [hskip], htext⟩

/-- A slot that may hold a segment is blank, or holds one between blanks. -/
theorem readSlot_cases (s : List Char) :
    (∃ t rest, s = t ++ rest ∧ strip isSpace t = [] ∧
      readSlot s = ⟨.blank, rest, some rest⟩) ∨
    ∃ (t rest : List Char) (a a' : Segment), s = t ++ rest ∧ a'.IsWritten (strip isSpace t) ∧
      a'.text = a.text ∧ readSlot s = ⟨.one a, rest, none⟩ := by
  unfold readSlot
  split
  next a rest h =>
    obtain ⟨t, a', hs, hwritten, htext⟩ := segment?_sound h
    exact Or.inr ⟨t, skipSpaces rest, a, a', hs, hwritten, htext, rfl⟩
  next =>
    obtain ⟨u, hu, hs⟩ := Text.exists_skipSpaces s
    have hstrip : strip isSpace (u ++ ([] ++ [])) = [] :=
      Text.strip_surround hu (List.forall_mem_nil _) (Text.stops_nil _) (Text.stops_nil _)
    rw [List.append_nil, List.append_nil] at hstrip
    exact Or.inl ⟨u, skipSpaces s, hs, hstrip, rfl⟩

theorem readsSlots_readSlot : ReadsSlots false readSlot where
  sound := by
    intro s
    rcases readSlot_cases s with ⟨t, rest, hs, hstrip, h⟩ | ⟨t, rest, a, a', hs, ha, htext, h⟩
    · rw [h]
      exact ⟨t, hs, .blank, .blank hstrip, rfl⟩
    · rw [h]
      exact ⟨t, hs, .one a', .one ha, Segment.entry_congr htext⟩
  complete := by
    rintro t rest _ ⟨slot, hwritten, rfl⟩ hr
    cases hwritten with
    | blank h => simp only [readSlot_blank h hr.ends, and_self]
    | one h =>
      obtain ⟨a', hread, htext⟩ := readSlot_one h hr.ends
      rw [hread]
      exact ⟨rfl, Segment.entry_congr htext⟩
    | two h => cases h

theorem readPair_blank {missing : Option (List Char)} (h : readSlot s = ⟨.blank, rest, missing⟩) :
    readPair s = ⟨.blank, rest, missing⟩ := by
  rw [readPair, h]

theorem readPair_one {a : Segment} {missing : Option (List Char)} (hr : ∀ more, rest ≠ '|' :: more)
    (h : readSlot s = ⟨.one a, rest, missing⟩) : readPair s = ⟨.one a, rest, missing⟩ := by
  rw [readPair, h]
  split
  next more _ heq =>
    cases heq
    exact absurd rfl (hr more)
  next => rfl

theorem readPair_bar {label : Segment} {missing : Option (List Char)}
    (h : readSlot s = ⟨.one label, '|' :: rest, missing⟩) :
    readPair s =
      match segment? (skipSpaces rest) with
      | some (preset, final) => ⟨.two label preset, skipSpaces final, none⟩
      | none => ⟨.one label, '|' :: rest, some (skipSpaces rest)⟩ := by
  rw [readPair, h]
  rfl

theorem entry_two_congr {label label' preset preset' : Segment} (hl : label'.text = label.text)
    (hp : preset'.text = preset.text) :
    (Slot.two label' preset').entry = (Slot.two label preset).entry := by
  rw [Slot.entry, Slot.entry, Segment.entry_congr hp, hl]

theorem readsSlots_readPair : ReadsSlots true readPair where
  sound := by
    intro s
    rcases readSlot_cases s with ⟨t, rest, hs, hstrip, h⟩ | ⟨t, rest, a, a', hs, ha, htext, h⟩
    · rw [readPair_blank h]
      exact ⟨t, hs, .blank, .blank hstrip, rfl⟩
    · have hone : ∃ t', s = t' ++ rest ∧ Asks true t' (Slot.one a).entry :=
        ⟨t, hs, .one a', .one ha, Segment.entry_congr htext⟩
      by_cases hbar : ∃ more, rest = '|' :: more
      · obtain ⟨more, rfl⟩ := hbar
        rw [readPair_bar h]
        split
        next preset final hpreset =>
          obtain ⟨p, p', rfl, hp, hptext⟩ := segment?_sound hpreset
          exact ⟨t ++ '|' :: p, by rw [hs]; simp, .two a' p', .two rfl ha hp,
            entry_two_congr htext hptext⟩
        next => exact hone
      · rw [readPair_one (fun more hmore => hbar ⟨more, hmore⟩) h]
        exact hone
  complete := by
    rintro t rest _ ⟨slot, hwritten, rfl⟩ hr
    have hbar : ∀ more, rest ≠ '|' :: more := by
      rintro more rfl
      exact absurd (hr '|' rfl) (by decide)
    cases hwritten with
    | blank h => simp only [readPair_blank (readSlot_blank h hr.ends), and_self]
    | one h =>
      obtain ⟨a', hread, htext⟩ := readSlot_one h hr.ends
      rw [readPair_one hbar hread]
      exact ⟨rfl, Segment.entry_congr htext⟩
    | @two l p label preset _ hl hp =>
      have hends : Ends ('|' :: (p ++ rest)) := by
        rintro c ⟨⟩
        exact Or.inr rfl
      obtain ⟨label', hread, hltext⟩ := readSlot_one hl hends
      obtain ⟨preset', after, hpreset, hskip, hptext⟩ := segment?_written hp hr.ends
      rw [List.append_assoc, List.cons_append, readPair_bar hread, hpreset]
      exact ⟨hskip, entry_two_congr hltext hptext⟩

end

end FreeBody.Composition
