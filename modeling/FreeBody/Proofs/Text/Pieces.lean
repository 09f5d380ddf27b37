import FreeBody.Text.Blank
import FreeBody.Text.Pieces

/-!
# Cutting at the front and at a separator

A part of a text at its front is found again when what follows cannot belong to it
(`takeWhile_append_of_stops`), and a fixed beginning is taken off exactly when it is there
(`dropPrefix?_eq_some_iff`).  Stripping takes away what is put around a text that does not begin or
end so (`strip_surround`); trimming strips blanks.  Cutting at a separator finds a piece without
separators again (`pieces_append_cons`).
-/

namespace FreeBody.Text

/-- To decide what holds of all characters in a list, look at these and no others. -/
instance decidableForallChar (p : Char → Prop) [DecidablePred p] (s : List Char) :
    Decidable (∀ c ∈ s, p c) := List.decidableBAll p s

/-- What holds of the first 128 codes holds of every character of ASCII. -/
theorem forall_ascii {P : Char → Prop} (h : ∀ n < 128, P (Char.ofNat n)) {c : Char}
    (hc : c.toNat < 128) : P c := by
  have := h c.toNat hc
  rwa [Char.ofNat_toNat] at this

/-- Whether a run of characters with the property `p` ends in front of `rest`. -/
def Stops (p : Char → Bool) (rest : List Char) : Prop := ∀ c ∈ rest.head?, p c = false

theorem stops_nil (p : Char → Bool) : Stops p [] := by
  intro c hc
  simp at hc

theorem stops_cons_iff {p : Char → Bool} {c : Char} {rest : List Char} :
    Stops p (c :: rest) ↔ p c = false := by
  unfold Stops
  rw [List.head?_cons]
  constructor
  · intro h
    exact h c rfl
  · rintro h d ⟨⟩
    exact h

instance (p : Char → Bool) (rest : List Char) : Decidable (Stops p rest) :=
  match rest with
  | [] => isTrue (stops_nil p)
  | _ :: _ => decidable_of_iff _ stops_cons_iff.symm

theorem stops_append {p : Char → Bool} {s : List Char} (hne : s ≠ []) (h : Stops p s)
    (rest : List Char) : Stops p (s ++ rest) := by
  obtain ⟨c, cs, rfl⟩ := List.exists_cons_of_ne_nil hne
  exact stops_cons_iff.2 (stops_cons_iff.1 h)

theorem stops_of_forall {p : Char → Bool} {s : List Char} (h : ∀ c ∈ s, p c = false) :
    Stops p s := fun c hc => h c (List.mem_of_head? hc)

theorem takeWhile_of_stops {p : Char → Bool} {rest : List Char} (h : Stops p rest) :
    rest.takeWhile p = [] := by
  cases rest with
  | nil => rfl
  | cons c rest =>
    rw [stops_cons_iff] at h
    rw [List.takeWhile_cons_of_neg (by simp [h])]

theorem dropWhile_of_stops {p : Char → Bool} {rest : List Char} (h : Stops p rest) :
    rest.dropWhile p = rest := by
  cases rest with
  | nil => rfl
  | cons c rest =>
    rw [stops_cons_iff] at h
    rw [List.dropWhile_cons_of_neg (by simp [h])]

/-- A run that is part of a text ends in front of what cannot belong to it. -/
theorem run_append_of_stops {p : Char → Bool} {rest : List Char} (h : Stops p rest)
    (s : List Char) :
    (s ++ rest).takeWhile p = s.takeWhile p ∧ (s ++ rest).dropWhile p = s.dropWhile p ++ rest := by
  induction s with
  | nil => exact ⟨takeWhile_of_stops h, dropWhile_of_stops h⟩
  | cons c s ih =>
    cases hc : p c with
    | false => simp [hc]
    | true => simp [hc, ih.1, ih.2]

theorem takeWhile_append_of_stops {p : Char → Bool} {s rest : List Char}
    (hs : ∀ c ∈ s, p c = true) (h : Stops p rest) : (s ++ rest).takeWhile p = s := by
  rw [List.takeWhile_append_of_pos hs, takeWhile_of_stops h, List.append_nil]

theorem dropWhile_append_of_stops {p : Char → Bool} {s rest : List Char}
    (hs : ∀ c ∈ s, p c = true) (h : Stops p rest) : (s ++ rest).dropWhile p = rest := by
  rw [List.dropWhile_append_of_pos hs, dropWhile_of_stops h]

theorem stops_dropWhile (p : Char → Bool) (s : List Char) : Stops p (s.dropWhile p) := by
  intro c hc
  have := List.head?_dropWhile_not p s
  rw [Option.mem_def.1 hc] at this
  simpa using this

/-- A beginning is taken off exactly when it is there. -/
theorem dropPrefix?_eq_some_iff {start s rest : List Char} :
    dropPrefix? start s = some rest ↔ s = start ++ rest := by
  unfold dropPrefix?
  constructor
  · intro h
    split at h
    next hp =>
      obtain ⟨more, rfl⟩ := List.isPrefixOf_iff_prefix.1 hp
      rw [List.drop_left, Option.some.injEq] at h
      rw [h]
    next => cases h
  · rintro rfl
    rw [if_pos (List.isPrefixOf_iff_prefix.2 ⟨rest, rfl⟩), List.drop_left]

/-! ## Stripping -/

/-- `s` without the characters with the property `p` at its two ends. -/
def strip (p : Char → Bool) (s : List Char) : List Char :=
  ((s.dropWhile p).reverse.dropWhile p).reverse

section

variable {p : Char → Bool} {a b s : List Char}

theorem strip_eq_self_of_stops (h : Stops p s) (h' : Stops p s.reverse) : strip p s = s := by
  unfold strip
  rw [dropWhile_of_stops h, dropWhile_of_stops h', List.reverse_reverse]

/-- A text is its stripped form between characters with the property. -/
theorem exists_strip (p : Char → Bool) (s : List Char) :
    ∃ a b, (∀ c ∈ a, p c = true) ∧ (∀ c ∈ b, p c = true) ∧ s = a ++ (strip p s ++ b) := by
  refine ⟨s.takeWhile p, ((s.dropWhile p).reverse.takeWhile p).reverse, ?_, ?_, ?_⟩
  · exact List.all_eq_true.1 List.all_takeWhile
  · exact fun c hc => List.all_eq_true.1 List.all_takeWhile c (List.mem_reverse.1 hc)
  · unfold strip
    rw [← List.reverse_append, List.takeWhile_append_dropWhile, List.reverse_reverse,
      List.takeWhile_append_dropWhile]

theorem stops_strip (p : Char → Bool) (s : List Char) :
    Stops p (strip p s) ∧ Stops p (strip p s).reverse := by
  unfold strip
  rw [List.reverse_reverse]
  refine ⟨?_, stops_dropWhile p _⟩
  -- what is left of a text without such characters in front begins like it
  obtain ⟨tail, ht⟩ := List.dropWhile_suffix (l := (s.dropWhile p).reverse) p
  have hstart : s.dropWhile p =
      ((s.dropWhile p).reverse.dropWhile p).reverse ++ tail.reverse := by
    rw [← List.reverse_append, ht, List.reverse_reverse]
  rcases hcut : ((s.dropWhile p).reverse.dropWhile p).reverse with _ | ⟨c, cs⟩
  · exact stops_nil p
  · have h := stops_dropWhile p s
    rw [hstart, hcut] at h
    exact stops_cons_iff.2 (stops_cons_iff.1 h)

theorem mem_of_mem_strip {c : Char} (h : c ∈ strip p s) : c ∈ s := by
  obtain ⟨a, b, -, -, hs⟩ := exists_strip p s
  rw [hs]
  exact List.mem_append_right a (List.mem_append_left b h)

/-- What is put around a stripped text is taken away. -/
theorem strip_surround (ha : ∀ c ∈ a, p c = true) (hb : ∀ c ∈ b, p c = true) (h : Stops p s)
    (h' : Stops p s.reverse) : strip p (a ++ (s ++ b)) = s := by
  have hb' : ∀ c ∈ b.reverse, p c = true := fun c hc => hb c (List.mem_reverse.1 hc)
  unfold strip
  rw [List.dropWhile_append_of_pos ha]
  by_cases hnil : s = []
  · subst hnil
    have := dropWhile_append_of_stops hb (stops_nil p)
    rw [List.append_nil] at this
    rw [List.nil_append, this]
    rfl
  · rw [dropWhile_of_stops (stops_append hnil h b), List.reverse_append,
      dropWhile_append_of_stops hb' h', List.reverse_reverse]

end

/-! ## Token separators -/

/-- Whether `s` holds nothing but token separators. -/
def Spaces (s : List Char) : Prop := ∀ c ∈ s, isSpace c = true

instance : DecidablePred Spaces := fun s =>
  inferInstanceAs (Decidable (∀ c ∈ s, isSpace c = true))

theorem skipSpaces_append {u : List Char} (hu : Spaces u) (s : List Char) :
    skipSpaces (u ++ s) = skipSpaces s := List.dropWhile_append_of_pos hu

theorem skipSpaces_of_stops {s : List Char} (h : Stops isSpace s) : skipSpaces s = s :=
  dropWhile_of_stops h

theorem stops_skipSpaces (s : List Char) : Stops isSpace (skipSpaces s) := stops_dropWhile isSpace s

/-- What is skipped is put back. -/
theorem exists_skipSpaces (s : List Char) : ∃ u, Spaces u ∧ s = u ++ skipSpaces s :=
  ⟨s.takeWhile isSpace, List.all_eq_true.1 List.all_takeWhile,
    List.takeWhile_append_dropWhile.symm⟩

theorem stops_isSpace_of_isBlank {s : List Char} (h : Stops isBlank s) : Stops isSpace s := by
  intro c hc
  rw [Bool.eq_false_iff]
  intro hspace
  have := h c hc
  rw [isBlank_of_isSpace hspace] at this
  cases this

/-! ## Trimming -/

/-- A printed character of ASCII is no blank. -/
theorem isBlank_of_printed {c : Char} (h : 33 ≤ c.toNat) (h' : c.toNat ≤ 126) :
    isBlank c = false := by
  rw [Bool.eq_false_iff]
  unfold isBlank
  simp only [ne_eq, Bool.or_eq_true, Bool.and_eq_true, decide_eq_true_eq, beq_iff_eq]
  omega

theorem trim_eq_self_of_stops {s : List Char} (h : Stops isBlank s)
    (h' : Stops isBlank s.reverse) : trim s = s :=
  strip_eq_self_of_stops h h'

theorem trim_of_forall {s : List Char} (h : ∀ c ∈ s, isBlank c = false) : trim s = s :=
  trim_eq_self_of_stops (stops_of_forall h)
    (stops_of_forall fun c hc => h c (List.mem_reverse.1 hc))

theorem stops_trim (s : List Char) : Stops isBlank (trim s) ∧ Stops isBlank (trim s).reverse :=
  stops_strip isBlank s

theorem trim_trim (s : List Char) : trim (trim s) = trim s :=
  trim_eq_self_of_stops (stops_trim s).1 (stops_trim s).2

theorem mem_of_mem_trim {c : Char} {s : List Char} (h : c ∈ trim s) : c ∈ s := mem_of_mem_strip h

/-- A text that begins and ends with trimmed ones is trimmed. -/
theorem trim_append_append {a b : List Char} (ha : trim a = a) (hb : trim b = b) (hane : a ≠ [])
    (hbne : b ≠ []) (middle : List Char) :
    trim (a ++ (middle ++ b)) = a ++ (middle ++ b) := by
  have hstart := (stops_trim a).1
  have hend := (stops_trim b).2
  rw [ha] at hstart
  rw [hb] at hend
  apply trim_eq_self_of_stops
  · exact stops_append hane hstart _
  · rw [List.reverse_append, List.reverse_append, List.append_assoc]
    exact stops_append (fun h => hbne (List.reverse_eq_nil_iff.1 h)) hend _

/-- Blanks around a trimmed text are taken away. -/
theorem trim_surround {a s b : List Char} (ha : ∀ c ∈ a, isBlank c = true)
    (hb : ∀ c ∈ b, isBlank c = true) (hs : trim s = s) : trim (a ++ (s ++ b)) = s := by
  obtain ⟨h, h'⟩ := stops_trim s
  rw [hs] at h h'
  exact strip_surround ha hb h h'

/-! ## Pieces -/

/-- Joined texts are the first one and the others, each behind a separator. -/
theorem intercalate_cons (separator first : List Char) (others : List (List Char)) :
    separator.intercalate (first :: others) = first ++ others.flatMap (separator ++ ·) := by
  induction others generalizing first with
  | nil => simp
  | cons second others ih =>
    rw [List.intercalate_cons_cons, ih second, List.flatMap_cons]
    simp

section

variable {separator : Char} {s rest : List Char}

theorem pieces_of_not_mem (h : separator ∉ s) : pieces separator s = [s] := by
  induction s with
  | nil => rfl
  | cons c s ih =>
    rw [List.mem_cons, not_or] at h
    rw [pieces, if_neg (Ne.symm h.1), ih h.2]

theorem pieces_append_cons (h : separator ∉ s) :
    pieces separator (s ++ separator :: rest) = s :: pieces separator rest := by
  induction s with
  | nil => rw [List.nil_append, pieces, if_pos rfl]
  | cons c s ih =>
    rw [List.mem_cons, not_or] at h
    rw [List.cons_append, pieces, if_neg (Ne.symm h.1), ih h.2]

theorem exists_pieces (separator : Char) (s : List Char) :
    ∃ first others, pieces separator s = first :: others := by
  induction s with
  | nil => exact ⟨[], [], rfl⟩
  | cons c s ih =>
    obtain ⟨first, others, hs⟩ := ih
    rw [pieces, hs]
    by_cases hc : c = separator
    · exact ⟨[], first :: others, by rw [if_pos hc]⟩
    · exact ⟨c :: first, others, by rw [if_neg hc]⟩

/-- The pieces, with separators between them, are the text. -/
theorem intercalate_pieces (separator : Char) (s : List Char) :
    [separator].intercalate (pieces separator s) = s := by
  induction s with
  | nil => exact List.intercalate_singleton
  | cons c s ih =>
    obtain ⟨first, others, hs⟩ := exists_pieces separator s
    rw [hs] at ih
    rw [pieces, hs]
    by_cases hc : c = separator
    · rw [if_pos hc, List.intercalate_cons_cons, ih, hc]
      rfl
    · rw [if_neg hc]
      cases others with
      | nil =>
        rw [List.intercalate_singleton] at ih ⊢
        rw [ih]
      | cons second others =>
        rw [List.intercalate_cons_cons] at ih ⊢
        rw [← ih]
        rfl

/-- Texts without separators are the pieces of what they make up. -/
theorem pieces_intercalate {texts : List (List Char)} (hne : texts ≠ [])
    (h : ∀ text ∈ texts, separator ∉ text) :
    pieces separator ([separator].intercalate texts) = texts := by
  induction texts with
  | nil => exact absurd rfl hne
  | cons text texts ih =>
    rw [List.forall_mem_cons] at h
    cases texts with
    | nil => rw [List.intercalate_singleton, pieces_of_not_mem h.1]
    | cons second texts =>
      rw [List.intercalate_cons_cons, List.append_assoc, List.singleton_append,
        pieces_append_cons h.1, ih (List.cons_ne_nil _ _) h.2]

theorem not_mem_of_mem_pieces {piece : List Char} (h : piece ∈ pieces separator s) :
    separator ∉ piece := by
  induction s generalizing piece with
  | nil =>
    rw [pieces, List.mem_singleton] at h
    subst h
    exact List.not_mem_nil
  | cons c s ih =>
    rw [pieces] at h
    by_cases hc : c = separator
    · rw [if_pos hc] at h
      rcases List.mem_cons.1 h with rfl | h
      · exact List.not_mem_nil
      · exact ih h
    · rw [if_neg hc] at h
      split at h
      next first others heq =>
        rcases List.mem_cons.1 h with rfl | h
        · rw [List.mem_cons, not_or]
          exact ⟨Ne.symm hc, ih (heq ▸ List.mem_cons_self)⟩
        · exact ih (heq ▸ List.mem_cons_of_mem first h)
      next =>
        rw [List.mem_singleton] at h
        subst h
        rw [List.mem_singleton]
        exact Ne.symm hc

end

end FreeBody.Text
