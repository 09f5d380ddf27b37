import FreeBody.Proofs.Text.Pieces
import Mathlib.Data.List.TakeWhile

/-!
# The lines of a text that count

When markup is laid out again its lines are moved in or out, their ends are cut and blank lines
go.  What is left is `contentLines`: the lines without the blanks at their ends, and without those
that are blank.

Two texts have the same lines exactly when, between line feeds, one becomes the other by
exchanging blanks that hold a line feed (`Reflow`).  In this form a property of markup can be
carried from one text to the other along the text (`contentLines_eq_of_reflow`,
`reflow_standard`).
-/

namespace FreeBody.Text

/-- The lines that are not blank, without the blanks at their ends. -/
def contentLines (s : List Char) : List (List Char) :=
  ((pieces '\n' s).map trim).filter (!·.isEmpty)

/-! ## Pieces and blanks -/

theorem pieces_append_separator (separator : Char) (s t : List Char) :
    pieces separator (s ++ separator :: t) = pieces separator s ++ pieces separator t := by
  induction s with
  | nil =>
    rw [List.nil_append, pieces, pieces, if_pos rfl]
    rfl
  | cons c s ih =>
    rw [List.cons_append, pieces, pieces, ih]
    by_cases hc : c = separator
    · rw [if_pos hc, if_pos hc, List.cons_append]
    · rw [if_neg hc, if_neg hc]
      obtain ⟨first, others, hs⟩ := exists_pieces separator s
      rw [hs]
      rfl

/-- Without a separator, a text goes on with the last piece. -/
theorem pieces_append_of_not_mem {separator : Char} {t : List Char} (h : separator ∉ t)
    (s : List Char) : ∃ init last, pieces separator s = init ++ [last] ∧
      pieces separator (s ++ t) = init ++ [last ++ t] := by
  induction s with
  | nil => exact ⟨[], [], rfl, by rw [List.nil_append, pieces_of_not_mem h]; rfl⟩
  | cons c s ih =>
    obtain ⟨init, last, hs, ht⟩ := ih
    rw [List.cons_append, pieces, pieces, hs, ht]
    by_cases hc : c = separator
    · rw [if_pos hc, if_pos hc]
      exact ⟨[] :: init, last, rfl, rfl⟩
    · rw [if_neg hc, if_neg hc]
      cases init with
      | nil => exact ⟨[], c :: last, rfl, rfl⟩
      | cons first init => exact ⟨(c :: first) :: init, last, rfl, rfl⟩

/-- Whether `s` holds nothing but blanks. -/
def Blank (s : List Char) : Prop := ∀ c ∈ s, isBlank c = true

instance : DecidablePred Blank := fun s =>
  inferInstanceAs (Decidable (∀ c ∈ s, isBlank c = true))

theorem Blank.append {s t : List Char} (hs : Blank s) (ht : Blank t) : Blank (s ++ t) := by
  intro c hc
  rcases List.mem_append.1 hc with hc | hc
  · exact hs c hc
  · exact ht c hc

theorem trim_blank_append {u : List Char} (hu : Blank u) (s : List Char) :
    trim (u ++ s) = trim s := by
  rw [trim, trim, trimStart, trimStart, List.dropWhile_append_of_pos hu]

theorem eq_trimEnd_append (s : List Char) :
    s = trimEnd s ++ (s.reverse.takeWhile isBlank).reverse := by
  rw [trimEnd, ← List.reverse_append, List.takeWhile_append_dropWhile, List.reverse_reverse]

/-- A text is its trimmed form between blanks. -/
theorem exists_trim (s : List Char) : ∃ u v, Blank u ∧ Blank v ∧ s = u ++ (trim s ++ v) :=
  exists_strip isBlank s

theorem mem_trim {s : List Char} {c : Char} (hc : isBlank c = false) (h : c ∈ s) : c ∈ trim s := by
  obtain ⟨u, v, hu, hv, hs⟩ := exists_trim s
  rw [hs, List.mem_append, List.mem_append] at h
  rcases h with h | h | h
  · rw [hu c h] at hc
    cases hc
  · exact h
  · rw [hv c h] at hc
    cases hc

theorem trim_append_blank {u : List Char} (hu : Blank u) (s : List Char) :
    trim (s ++ u) = trim s := by
  obtain ⟨a, b, ha, hb, hs⟩ := exists_trim s
  conv => lhs; rw [hs]
  rw [List.append_assoc, List.append_assoc]
  exact trim_surround ha (hb.append hu) (trim_trim s)

theorem trim_eq_nil_iff {s : List Char} : trim s = [] ↔ Blank s := by
  constructor
  · intro h
    obtain ⟨u, v, hu, hv, hs⟩ := exists_trim s
    rw [h] at hs
    rw [hs]
    exact hu.append hv
  · intro h
    have := trim_append_blank h []
    rwa [List.nil_append] at this

/-! ## Lines -/

theorem contentLines_append (s t : List Char) :
    contentLines (s ++ '\n' :: t) = contentLines s ++ contentLines t := by
  rw [contentLines, pieces_append_separator, List.map_append, List.filter_append]
  rfl

theorem contentLines_of_not_mem {s : List Char} (h : '\n' ∉ s) :
    contentLines s = if trim s = [] then [] else [trim s] := by
  rw [contentLines, pieces_of_not_mem h, List.map_singleton]
  by_cases hs : trim s = []
  · rw [if_pos hs, hs]
    rfl
  · rw [if_neg hs, List.filter_cons_of_pos (by simpa using hs)]
    rfl

theorem contentLines_nil : contentLines [] = [] := rfl

theorem contentLines_blank_append {u : List Char} (hu : Blank u) (s : List Char) :
    contentLines (u ++ s) = contentLines s := by
  induction u with
  | nil => rfl
  | cons c u ih =>
    have htail : Blank u := fun d hd => hu d (List.mem_cons_of_mem c hd)
    rw [List.cons_append, ← ih htail]
    by_cases hc : c = '\n'
    · subst hc
      exact contentLines_append [] (u ++ s)
    · have hblank : Blank [c] := fun d hd => hu d (List.mem_singleton.1 hd ▸ List.mem_cons_self)
      rw [contentLines, contentLines, pieces, if_neg hc]
      cases pieces '\n' (u ++ s) with
      | nil => simp [trim_eq_nil_iff.2 hblank]
      | cons first others =>
        have htrim := trim_blank_append hblank first
        rw [List.singleton_append] at htrim
        simp only [List.map_cons, htrim]

theorem contentLines_append_blank {u : List Char} (hu : Blank u) (s : List Char) :
    contentLines (s ++ u) = contentLines s := by
  induction u generalizing s with
  | nil => rw [List.append_nil]
  | cons c u ih =>
    have htail : Blank u := fun d hd => hu d (List.mem_cons_of_mem c hd)
    by_cases hc : c = '\n'
    · subst hc
      have hnil := ih htail []
      rw [List.nil_append, contentLines_nil] at hnil
      rw [contentLines_append, hnil, List.append_nil]
    · have hblank : Blank [c] := fun d hd => hu d (List.mem_singleton.1 hd ▸ List.mem_cons_self)
      obtain ⟨init, last, hs, hsc⟩ := pieces_append_of_not_mem (t := [c])
        (fun h => hc (List.mem_singleton.1 h).symm) s
      rw [List.append_cons, ih htail, contentLines, hsc, contentLines, hs]
      simp only [List.map_append, List.map_cons, trim_append_blank hblank]

theorem contentLines_trim (s : List Char) : contentLines (trim s) = contentLines s := by
  obtain ⟨u, v, hu, hv, hs⟩ := exists_trim s
  conv => rhs; rw [hs]
  rw [contentLines_blank_append hu, contentLines_append_blank hv]

/-- The lines of a text are those of its pieces. -/
theorem contentLines_eq_flatMap (s : List Char) :
    contentLines s = (pieces '\n' s).flatMap contentLines := by
  have hline : ∀ ps : List (List Char), (∀ p ∈ ps, '\n' ∉ p) →
      (ps.map trim).filter (!·.isEmpty) = ps.flatMap contentLines := by
    intro ps hps
    induction ps with
    | nil => rfl
    | cons p ps ih =>
      rw [List.forall_mem_cons] at hps
      rw [List.map_cons, List.flatMap_cons, ← ih hps.2, contentLines_of_not_mem hps.1]
      by_cases hp : trim p = []
      · rw [if_pos hp, hp]
        rfl
      · rw [if_neg hp, List.filter_cons_of_pos (by simpa using hp)]
        rfl
  exact hline _ fun _ hp => not_mem_of_mem_pieces hp

theorem contentLines_dropReturn (s : List Char) : contentLines (dropReturn s) = contentLines s := by
  unfold dropReturn
  split
  next h =>
    obtain ⟨init, rfl⟩ := List.getLast?_eq_some_iff.1 h
    have hreturn : Blank ['\r'] := fun c hc => List.mem_singleton.1 hc ▸ rfl
    rw [List.dropLast_concat, contentLines_append_blank hreturn]
  next => rfl

/-- Cutting a text into lines keeps what counts in them. -/
theorem flatMap_contentLines_lines (s : List Char) :
    (lines s).flatMap contentLines = contentLines s := by
  obtain ⟨init, last, hs, -⟩ := pieces_append_of_not_mem (List.not_mem_nil : '\n' ∉ []) s
  rw [contentLines_eq_flatMap, lines, hs, List.dropLast_concat, List.getLast?_concat,
    List.flatMap_append, List.flatMap_append, List.flatMap_map, Option.toList_some]
  simp only [contentLines_dropReturn]
  cases last with
  | nil => rfl
  | cons c last => rfl

theorem contentLines_trimEnd (s : List Char) : contentLines (trimEnd s) = contentLines s := by
  have hblank : Blank (s.reverse.takeWhile isBlank).reverse := fun c hc =>
    List.mem_takeWhile_imp (List.mem_reverse.1 hc)
  conv => rhs; rw [eq_trimEnd_append s]
  rw [contentLines_append_blank hblank]

/-! ## Exchanging line ends -/

/-- Blanks with a line feed among them. -/
structure Breaks (u : List Char) : Prop where
  blank : Blank u
  newline : '\n' ∈ u

/-- One text becomes the other by exchanging blanks that hold a line feed. -/
inductive Reflow : List Char → List Char → Prop
  | nil : Reflow [] []
  | char (c : Char) {s t : List Char} : Reflow s t → Reflow (c :: s) (c :: t)
  | gap {u v s t : List Char} : Breaks u → Breaks v → Reflow s t → Reflow (u ++ s) (v ++ t)

namespace Reflow

theorem refl (s : List Char) : Reflow s s := by
  induction s with
  | nil => exact .nil
  | cons c s ih => exact .char c ih

theorem symm {s t : List Char} (h : Reflow s t) : Reflow t s := by
  induction h with
  | nil => exact .nil
  | char c _ ih => exact .char c ih
  | gap hu hv _ ih => exact .gap hv hu ih

theorem append {s t s' t' : List Char} (h : Reflow s t) (h' : Reflow s' t') :
    Reflow (s ++ s') (t ++ t') := by
  induction h with
  | nil => exact h'
  | char c _ ih => exact .char c ih
  | gap hu hv _ ih =>
    rw [List.append_assoc, List.append_assoc]
    exact .gap hu hv ih

/-- A character that is no blank is kept, and parts the texts. -/
theorem split {c : Char} (hc : isBlank c = false) {a b y : List Char}
    (h : Reflow (a ++ c :: b) y) : ∃ a' b', y = a' ++ c :: b' ∧ Reflow a a' ∧ Reflow b b' := by
  generalize hs : a ++ c :: b = s at h
  induction h generalizing a with
  | nil => exact absurd hs (by simp)
  | @char d s t ht ih =>
    cases a with
    | nil =>
      obtain ⟨rfl, rfl⟩ := List.cons.inj hs
      exact ⟨[], t, rfl, .nil, ht⟩
    | cons e a =>
      obtain ⟨rfl, htail⟩ := List.cons.inj hs
      obtain ⟨a', b', rfl, ha, hb⟩ := ih htail
      exact ⟨e :: a', b', rfl, .char e ha, hb⟩
  | @gap u v s t hu hv ht ih =>
    rcases List.append_eq_append_iff.1 hs with ⟨m, rfl, hm⟩ | ⟨m, rfl, hm⟩
    · -- `c` would be one of the blanks
      cases m with
      | nil =>
        obtain ⟨a', b', rfl, ha, hb⟩ := ih (a := []) hm
        have hgap := Reflow.gap hu hv ha
        rw [List.append_nil] at hu hgap
        exact ⟨v ++ a', b', (List.append_assoc _ _ _).symm, by simpa using hgap, hb⟩
      | cons d m =>
        obtain ⟨rfl, -⟩ := List.cons.inj hm
        have := hu.blank c (List.mem_append_right a List.mem_cons_self)
        rw [hc] at this
        cases this
    · obtain ⟨a', b', rfl, ha, hb⟩ := ih hm.symm
      exact ⟨v ++ a', b', (List.append_assoc _ _ _).symm, .gap hu hv ha, hb⟩

/-- Without a line feed nothing is exchanged. -/
theorem eq_of_not_mem {s t : List Char} (h : Reflow s t) (hs : '\n' ∉ s) : t = s := by
  induction h with
  | nil => rfl
  | char c _ ih => rw [ih fun hm => hs (List.mem_cons_of_mem c hm)]
  | gap hu _ _ _ => exact absurd (List.mem_append_left _ hu.newline) hs

theorem cons {c : Char} (hc : isBlank c = false) {b y : List Char} (h : Reflow (c :: b) y) :
    ∃ b', y = c :: b' ∧ Reflow b b' := by
  obtain ⟨a', b', rfl, ha, hb⟩ := split hc (a := []) h
  obtain rfl := ha.eq_of_not_mem List.not_mem_nil
  exact ⟨b', rfl, hb⟩

theorem mem_of_nonblank {s t : List Char} (h : Reflow s t) {c : Char} (hc : isBlank c = false)
    (hm : c ∈ t) : c ∈ s := by
  obtain ⟨a, b, rfl⟩ := List.append_of_mem hm
  obtain ⟨a', b', rfl, -, -⟩ := h.symm.split hc
  exact List.mem_append_right a' List.mem_cons_self

end Reflow

/-! ## Lines and exchanges -/

theorem contentLines_breaks {u : List Char} (hu : Breaks u) (p s : List Char) :
    contentLines (p ++ (u ++ s)) = contentLines p ++ contentLines s := by
  obtain ⟨a, b, rfl⟩ := List.append_of_mem hu.newline
  have ha : Blank a := fun c hc => hu.blank c (List.mem_append_left _ hc)
  have hb : Blank b := fun c hc => hu.blank c (List.mem_append_right a (List.mem_cons_of_mem _ hc))
  have hcut : p ++ (a ++ '\n' :: b ++ s) = p ++ a ++ '\n' :: (b ++ s) := by simp
  rw [hcut, contentLines_append, contentLines_append_blank ha, contentLines_blank_append hb]

/-- Exchanged line ends do not change the lines. -/
theorem contentLines_eq_of_reflow {s t : List Char} (h : Reflow s t) :
    contentLines s = contentLines t := by
  suffices ∀ p, contentLines (p ++ s) = contentLines (p ++ t) from this []
  induction h with
  | nil => exact fun p => rfl
  | char c _ ih =>
    intro p
    rw [List.append_cons, ih, ← List.append_cons]
  | gap hu hv _ ih =>
    intro p
    have hrest := ih []
    rw [List.nil_append, List.nil_append] at hrest
    rw [contentLines_breaks hu, contentLines_breaks hv, hrest]

/-- Lines, each ended, with a line feed in front of the first. -/
def standing (ls : List (List Char)) : List Char := '\n' :: ls.flatMap fun l => l ++ ['\n']

theorem breaks_newline : Breaks ['\n'] :=
  ⟨fun _ hc => List.mem_singleton.1 hc ▸ rfl, List.mem_cons_self⟩

theorem Breaks.append_blank {u v : List Char} (hu : Breaks u) (hv : Blank v) : Breaks (u ++ v) :=
  ⟨hu.blank.append hv, List.mem_append_left v hu.newline⟩

theorem Breaks.blank_append {u v : List Char} (hu : Blank u) (hv : Breaks v) : Breaks (u ++ v) :=
  ⟨hu.append hv.blank, List.mem_append_right u hv.newline⟩

/-- One line in front of lines that stand. -/
theorem reflow_line {p w : List Char} (hp : '\n' ∉ p) {ls : List (List Char)}
    (hw : ∀ u, Breaks u → Reflow (u ++ w) (standing ls)) {u : List Char} (hu : Breaks u) :
    Reflow (u ++ (p ++ '\n' :: w)) (standing (contentLines p ++ ls)) := by
  rw [contentLines_of_not_mem hp]
  by_cases htrim : trim p = []
  · rw [if_pos htrim, List.nil_append]
    have hblank : Breaks (u ++ (p ++ ['\n'])) :=
      hu.append_blank ((trim_eq_nil_iff.1 htrim).append breaks_newline.blank)
    simpa using hw _ hblank
  · rw [if_neg htrim]
    obtain ⟨a, b, ha, hb, hcut⟩ := exists_trim p
    have hrest := hw (b ++ ['\n']) (.blank_append hb breaks_newline)
    have hline := (Reflow.refl (trim p)).append hrest
    have hgap := Reflow.gap (hu.append_blank ha) breaks_newline hline
    have hsplit : u ++ (p ++ '\n' :: w) = u ++ a ++ (trim p ++ (b ++ ['\n'] ++ w)) := by
      conv => lhs; rw [hcut]
      simp
    rw [hsplit]
    simpa [standing] using hgap

/-- A text between line feeds is reflowed to its lines. -/
theorem reflow_standing (s : List Char) :
    Reflow ('\n' :: s ++ ['\n']) (standing (contentLines s)) := by
  suffices ∀ u, Breaks u → Reflow (u ++ (s ++ ['\n'])) (standing (contentLines s)) from
    this _ breaks_newline
  -- the induction is on the lines: the blanks at the end of one pass to the next
  induction hn : s.length using Nat.strong_induction_on generalizing s with
  | _ n ih =>
    subst hn
    intro u hu
    by_cases hs : '\n' ∈ s
    · obtain ⟨p, q, rfl, hp⟩ := List.eq_append_cons_of_mem hs
      have hq := ih q.length (by simp; omega) q rfl
      have hline := reflow_line hp hq hu
      rw [contentLines_append]
      simpa only [List.append_assoc, List.cons_append] using hline
    · have hend : ∀ v, Breaks v → Reflow (v ++ []) (standing []) := fun v hv =>
        .gap hv breaks_newline .nil
      have hline := reflow_line hs hend hu
      rwa [List.append_nil] at hline

end FreeBody.Text
