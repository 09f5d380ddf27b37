import FreeBody.Inline.Span

/-!
# Where the spans of a text are

`Cut` says which decomposition of a text into prose and spans is meant, in terms of the text
alone.  From left to right, a span begins at the first double hash that has another one behind it
on its line, and ends at the nearest such one.  A text has exactly one such cut, and `pieces`
computes it:

    Cut s ps ↔ ps = pieces s                                                     (cut_iff)
-/

namespace FreeBody.Inline

/-! ## Delimiters -/

/-- Text that begins with a double hash that has another one behind it on its line. -/
def BeginsSpan (s : List Char) : Prop :=
  ∃ inner after, s = '#' :: '#' :: (inner ++ '#' :: '#' :: after) ∧ '\n' ∉ inner

/-- In front of the closing delimiter there is no end of line and no earlier delimiter. -/
theorem toDelimiter?_eq_some {s inner after : List Char}
    (h : toDelimiter? s = some (inner, after)) :
    '\n' ∉ inner ∧ ∀ a b, s = a ++ '#' :: '#' :: b → inner.length ≤ a.length := by
  fun_induction toDelimiter? s generalizing inner with
  | case1 rest =>
    obtain ⟨rfl, rfl⟩ := Prod.mk.inj (Option.some.inj h)
    exact ⟨List.not_mem_nil, fun a b _ => Nat.zero_le _⟩
  | case2 => cases h
  | case3 c rest hnot hc ih =>
    obtain ⟨p, hp, hq⟩ := Option.map_eq_some_iff.1 h
    obtain ⟨rfl, rfl⟩ := Prod.mk.inj hq
    obtain ⟨hline, hnear⟩ := ih hp
    refine ⟨?_, fun a b hab => ?_⟩
    · rw [List.mem_cons, not_or]
      exact ⟨Ne.symm hc, hline⟩
    · cases a with
      | nil =>
        obtain ⟨rfl, rfl⟩ := List.cons.inj hab
        exact absurd rfl (hnot b rfl)
      | cons d a =>
        rw [List.cons_append, List.cons.injEq] at hab
        exact Nat.succ_le_succ (hnear a b hab.2)
  | case4 => cases h

/-- A delimiter on the line is found. -/
theorem toDelimiter?_isSome {inner : List Char} (h : '\n' ∉ inner) (after : List Char) :
    (toDelimiter? (inner ++ '#' :: '#' :: after)).isSome := by
  induction inner with
  | nil => rfl
  | cons c inner ih =>
    rw [List.mem_cons, not_or] at h
    rw [List.cons_append]
    unfold toDelimiter?
    split
    next => rfl
    next hc =>
      obtain ⟨rfl, rfl⟩ := List.cons.inj hc
      rw [if_neg (Ne.symm h.1), Option.isSome_map]
      exact ih h.2
    next hc => cases hc

theorem span?_eq_none_iff {s : List Char} : span? s = none ↔ ¬ BeginsSpan s := by
  constructor
  · rintro h ⟨inner, after, rfl, hline⟩
    have hs := toDelimiter?_isSome hline after
    rw [show toDelimiter? (inner ++ '#' :: '#' :: after) = none from h] at hs
    cases hs
  · intro h
    cases hs : span? s with
    | none => rfl
    | some p =>
      obtain ⟨inner, after⟩ := p
      refine absurd ⟨inner, after, ?_, ?_⟩ h
      · rw [span?_eq_append hs, Piece.text]
        simp only [List.cons_append, List.append_assoc, List.nil_append]
      · unfold span? at hs
        split at hs
        next => exact (toDelimiter?_eq_some hs).1
        next => cases hs

/-! ## Cuts -/

/-- Text as a piece of prose, unless there is none. -/
def proseOf (s : List Char) : List Piece := if s.isEmpty then [] else [.prose s]

/-- The cut of a text at its spans, from left to right. -/
inductive Cut : List Char → List Piece → Prop
  /-- No double hash has another one behind it on its line. -/
  | prose {s : List Char} : (∀ a b, s = a ++ b → ¬ BeginsSpan b) → Cut s (proseOf s)
  /-- No span begins before this one, and none of the delimiters behind its opening one comes
  before the closing one. -/
  | span {before inner after : List Char} {ps : List Piece} :
      (∀ a b, before = a ++ b → b ≠ [] → ¬ BeginsSpan (b ++ ((Piece.span inner).text ++ after))) →
      '\n' ∉ inner →
      (∀ a b, inner ++ '#' :: '#' :: after = a ++ '#' :: '#' :: b → inner.length ≤ a.length) →
      Cut after ps →
      Cut (before ++ ((Piece.span inner).text ++ after)) (proseOf before ++ .span inner :: ps)

theorem addProse_proseOf (c : Char) (before : List Char) :
    addProse c (proseOf before) = proseOf (c :: before) := by
  cases before <;> rfl

theorem addProse_proseOf_span (c : Char) (before inner : List Char) (ps : List Piece) :
    addProse c (proseOf before ++ .span inner :: ps) =
      proseOf (c :: before) ++ .span inner :: ps := by
  cases before <;> rfl

theorem span?_of_cut {inner after : List Char} (hline : '\n' ∉ inner)
    (hnear : ∀ a b, inner ++ '#' :: '#' :: after = a ++ '#' :: '#' :: b →
      inner.length ≤ a.length) :
    span? ((Piece.span inner).text ++ after) = some (inner, after) := by
  have hs : (Piece.span inner).text ++ after =
      '#' :: '#' :: (inner ++ '#' :: '#' :: after) := by
    simp only [Piece.text, List.cons_append, List.append_assoc, List.nil_append]
  rw [hs]
  obtain ⟨⟨found, rest⟩, hp⟩ := Option.isSome_iff_exists.1 (toDelimiter?_isSome hline after)
  have heq := toDelimiter?_eq_append hp
  -- neither of the two closing delimiters comes before the other
  have hle := hnear found rest heq
  have hge := (toDelimiter?_eq_some hp).2 inner after rfl
  obtain ⟨rfl, hrest⟩ := List.append_inj heq (Nat.le_antisymm hle hge)
  obtain ⟨-, -, rfl⟩ := hrest
  exact hp

/-- `pieces` cuts a text at its spans. -/
theorem cut_pieces (s : List Char) : Cut s (pieces s) := by
  fun_induction pieces s with
  | case1 s inner after h ih =>
    rw [span?_eq_append h]
    have hd : toDelimiter? (inner ++ '#' :: '#' :: after) = some (inner, after) := by
      unfold span? at h
      split at h
      next rest => rw [← toDelimiter?_eq_append h]; exact h
      next => cases h
    obtain ⟨hline, hnear⟩ := toDelimiter?_eq_some hd
    have hnone : ∀ a b, [] = a ++ b → b ≠ [] →
        ¬ BeginsSpan (b ++ ((Piece.span inner).text ++ after)) := fun a b hab hne =>
      absurd (List.append_eq_nil_iff.1 hab.symm).2 hne
    have hcut : Cut _ (.span inner :: pieces after) := Cut.span hnone hline hnear ih
    simpa only [Piece.text, List.nil_append, List.append_assoc, List.cons_append] using hcut
  | case2 h =>
    refine Cut.prose fun a b hab => ?_
    obtain ⟨-, rfl⟩ := List.append_eq_nil_iff.1 hab.symm
    exact span?_eq_none_iff.1 h
  | case3 c rest h ih =>
    have hc := span?_eq_none_iff.1 h
    generalize hps : pieces rest = ps at ih
    cases ih with
    | prose hnone =>
      rw [addProse_proseOf]
      refine Cut.prose fun a b hab => ?_
      rcases List.cons_eq_append_iff.1 hab with ⟨rfl, rfl⟩ | ⟨a, rfl, rfl⟩
      · exact hc
      · exact hnone a b rfl
    | @span before inner after ps hfirst hline hnear hrest =>
      rw [addProse_proseOf_span, ← List.cons_append]
      refine Cut.span (fun a b hab hne => ?_) hline hnear hrest
      rcases List.cons_eq_append_iff.1 hab with ⟨rfl, rfl⟩ | ⟨a, rfl, rfl⟩
      · exact hc
      · exact hfirst a b rfl hne

theorem pieces_of_span {s inner after : List Char} (h : span? s = some (inner, after)) :
    pieces s = .span inner :: pieces after := by
  rw [pieces]
  split
  next inner' after' h' =>
    obtain ⟨rfl, rfl⟩ := Prod.mk.inj (Option.some.inj (h'.symm.trans h))
    rfl
  next h' => cases h'.symm.trans h

theorem pieces_of_char {c : Char} {s : List Char} (h : span? (c :: s) = none) :
    pieces (c :: s) = addProse c (pieces s) := by
  rw [pieces]
  split
  next h' => cases h'.symm.trans h
  next => rfl

/-- A text is cut in one way only. -/
theorem pieces_of_cut {s : List Char} {ps : List Piece} (h : Cut s ps) : pieces s = ps := by
  induction h with
  | @prose s hnone =>
    induction s with
    | nil =>
      rw [pieces]
      rfl
    | cons c s ih =>
      have hs : span? (c :: s) = none := span?_eq_none_iff.2 (hnone [] _ rfl)
      have htail := ih fun a b hab => hnone (c :: a) b (congrArg (c :: ·) hab)
      rw [pieces_of_char hs, htail, addProse_proseOf]
  | @span before inner after ps hfirst hline hnear _ ih =>
    induction before with
    | nil =>
      have hs := span?_of_cut hline hnear
      rw [List.nil_append, pieces_of_span hs, ih]
      rfl
    | cons c before ihb =>
      have hs : span? (c :: (before ++ ((Piece.span inner).text ++ after))) = none :=
        span?_eq_none_iff.2 (hfirst [] _ rfl (List.cons_ne_nil _ _))
      have htail := ihb fun a b hab => hfirst (c :: a) b (congrArg (c :: ·) hab)
      rw [List.cons_append, pieces_of_char hs, htail, addProse_proseOf_span]

theorem cut_iff {s : List Char} {ps : List Piece} : Cut s ps ↔ ps = pieces s := by
  constructor
  · intro h
    exact (pieces_of_cut h).symm
  · rintro rfl
    exact cut_pieces s

end FreeBody.Inline
