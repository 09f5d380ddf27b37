import FreeBody.Text.Bracket

/-!
# Balanced text

`Balanced` says, in terms of the text alone, what may stand between two brackets that belong
together.  The bracket that closes an open one is found exactly when such a text stands in front
of it:

    toClosing o c 0 s = some (content, after) ↔
      s = content ++ c :: after ∧ Balanced o c content                (toClosing_eq_some_iff)
-/

namespace FreeBody.Text

/-- Text in which every bracket belongs to another one. -/
inductive Balanced (opening closing : Char) : List Char → Prop
  | nil : Balanced opening closing []
  | char {c : Char} {s : List Char} : c ≠ opening → c ≠ closing → Balanced opening closing s →
      Balanced opening closing (c :: s)
  | group {inner s : List Char} : Balanced opening closing inner → Balanced opening closing s →
      Balanced opening closing (opening :: (inner ++ closing :: s))

section

variable {opening closing : Char}

theorem toClosing_closing (rest : List Char) :
    toClosing opening closing 0 (closing :: rest) = some ([], rest) := by
  rw [toClosing, if_pos ⟨rfl, rfl⟩]

section

variable (hne : opening ≠ closing)

include hne

theorem toClosing_succ_closing (depth : Nat) (rest : List Char) :
    toClosing opening closing (depth + 1) (closing :: rest) =
      (toClosing opening closing depth rest).map fun p => (closing :: p.1, p.2) := by
  rw [toClosing, if_neg (by omega)]
  simp only [if_neg hne.symm, if_pos, Nat.add_sub_cancel]

theorem toClosing_opening (depth : Nat) (rest : List Char) :
    toClosing opening closing depth (opening :: rest) =
      (toClosing opening closing (depth + 1) rest).map fun p => (opening :: p.1, p.2) := by
  rw [toClosing, if_neg fun h => hne h.1]
  simp only [if_pos]

end

theorem toClosing_char {c : Char} (ho : c ≠ opening) (hc : c ≠ closing) (depth : Nat)
    (rest : List Char) :
    toClosing opening closing depth (c :: rest) =
      (toClosing opening closing depth rest).map fun p => (c :: p.1, p.2) := by
  rw [toClosing, if_neg fun h => hc h.1]
  simp only [if_neg ho, if_neg hc]

/-- Balanced text neither opens nor closes a bracket for what follows. -/
theorem Balanced.toClosing_append (hne : opening ≠ closing) {s : List Char}
    (h : Balanced opening closing s) (depth : Nat) (rest : List Char) :
    toClosing opening closing depth (s ++ rest) =
      (toClosing opening closing depth rest).map fun p => (s ++ p.1, p.2) := by
  induction h generalizing depth rest with
  | nil => simp
  | char ho hc _ ih =>
    rw [List.cons_append, toClosing_char ho hc, ih, Option.map_map]
    rfl
  | @group inner s _ _ ihi ihs =>
    have hassoc : opening :: (inner ++ closing :: s) ++ rest =
        opening :: (inner ++ closing :: (s ++ rest)) := by simp
    rw [hassoc, toClosing_opening hne, ihi, toClosing_succ_closing hne, ihs]
    simp only [Option.map_map, Function.comp_def, List.cons_append, List.append_assoc]

/-- To close one bracket more is to close the innermost one first. -/
theorem toClosing_succ (hne : opening ≠ closing) (s : List Char) (depth more : Nat) :
    toClosing opening closing (depth + more + 1) s =
      (toClosing opening closing depth s).bind fun p =>
        (toClosing opening closing more p.2).map fun q => (p.1 ++ closing :: q.1, q.2) := by
  induction s generalizing depth with
  | nil => simp [toClosing]
  | cons c rest ih =>
    by_cases hc : c = closing
    · subst hc
      rw [toClosing_succ_closing hne]
      cases depth with
      | zero =>
        rw [toClosing_closing, Nat.zero_add]
        rfl
      | succ depth =>
        rw [toClosing_succ_closing hne, show depth + 1 + more = depth + more + 1 by omega, ih]
        simp [Option.map_bind, Option.bind_map, Function.comp_def]
    · by_cases ho : c = opening
      · subst ho
        rw [toClosing_opening hne, toClosing_opening hne,
          show depth + more + 1 + 1 = depth + 1 + more + 1 by omega, ih]
        simp [Option.map_bind, Option.bind_map, Function.comp_def]
      · rw [toClosing_char ho hc, toClosing_char ho hc, ih]
        simp [Option.map_bind, Option.bind_map, Function.comp_def]

/-- What stands in front of the bracket that closes an open one is balanced. -/
theorem balanced_of_toClosing (hne : opening ≠ closing) {s content after : List Char}
    (h : toClosing opening closing 0 s = some (content, after)) :
    Balanced opening closing content := by
  -- a group is cut at its own closing bracket, and both parts are shorter
  induction hn : s.length using Nat.strongRecOn generalizing s content after with
  | ind n ih =>
    cases s with
    | nil => cases h
    | cons c rest =>
      rw [List.length_cons] at hn
      by_cases hc : c = closing
      · subst hc
        rw [toClosing_closing] at h
        obtain ⟨rfl, -⟩ := Prod.mk.inj (Option.some.inj h)
        exact .nil
      · by_cases ho : c = opening
        · subst ho
          rw [toClosing_opening hne, toClosing_succ hne rest 0 0] at h
          obtain ⟨⟨_, _⟩, hbind, hp⟩ := Option.map_eq_some_iff.1 h
          obtain ⟨⟨inner, behind⟩, hinner, hmap⟩ := Option.bind_eq_some_iff.1 hbind
          obtain ⟨⟨more, final⟩, hmore, hq⟩ := Option.map_eq_some_iff.1 hmap
          obtain ⟨rfl, rfl⟩ := Prod.mk.inj hq
          obtain ⟨rfl, rfl⟩ := Prod.mk.inj hp
          have hlength := toClosing_length hinner
          exact .group (ih rest.length (by omega) hinner rfl)
            (ih behind.length (by omega) hmore rfl)
        · rw [toClosing_char ho hc] at h
          obtain ⟨⟨more, final⟩, hmore, hp⟩ := Option.map_eq_some_iff.1 h
          obtain ⟨rfl, rfl⟩ := Prod.mk.inj hp
          exact .char ho hc (ih rest.length (by omega) hmore rfl)

/-- **The closing bracket stands behind balanced text.** -/
theorem toClosing_eq_some_iff (hne : opening ≠ closing) {s content after : List Char} :
    toClosing opening closing 0 s = some (content, after) ↔
      s = content ++ closing :: after ∧ Balanced opening closing content := by
  constructor
  · intro h
    exact ⟨toClosing_eq_append h, balanced_of_toClosing hne h⟩
  · rintro ⟨rfl, h⟩
    rw [h.toClosing_append hne, toClosing_closing, Option.map_some, List.append_nil]

end

end FreeBody.Text
