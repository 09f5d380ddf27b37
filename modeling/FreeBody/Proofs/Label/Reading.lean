import FreeBody.Label.Typeset
import FreeBody.Proofs.Text.Bracket
import FreeBody.Proofs.Text.Pieces

/-!
# What a label says

`Says` reads a label from left to right, in terms of characters alone.  A backslash with the letters
behind it is a symbol if they name one.  A mark `_` or `^` in front of a group goes, with the braces
of the group, and what is in the group is read in turn.  Everything else is said as it is written: a
word that names no symbol, a mark in front of no group, and every other character.

A label says one thing only, and these are the characters of its runs:

    Says s t ↔ t = runsCharacters (runs s)                                       (says_iff)
-/

namespace FreeBody.Label

open Markup (Run Shift isAsciiLetter)
open Text (Balanced Stops isAlphanumeric)

/-! ## Marks and groups -/

/-- Whether `c` lowers or raises the group behind it. -/
def IsMark (c : Char) : Prop := c = '_' ∨ c = '^'

/-- A group in front of `after`: balanced text in braces, or as many alphanumeric characters as
there are. -/
inductive Group : List Char → List Char → List Char → Prop
  | braced {content after : List Char} : Balanced '{' '}' content →
      Group ('{' :: (content ++ '}' :: after)) content after
  | word {word after : List Char} : word ≠ [] → (∀ c ∈ word, isAlphanumeric c = true) →
      Stops isAlphanumeric after → Group (word ++ after) word after

section

variable {c : Char} {s content after : List Char}

theorem shift?_eq_none_iff : shift? c = none ↔ ¬ IsMark c := by
  unfold shift? IsMark
  split <;> simp_all

theorem exists_shift? (h : IsMark c) : ∃ shift, shift? c = some shift := by
  rw [← Option.ne_none_iff_exists', ne_eq, shift?_eq_none_iff]
  exact fun hnot => hnot h

theorem group_of_group? (h : group? s = some (content, after)) : Group s content after := by
  cases s with
  | nil => cases h
  | cons c s =>
    rw [group?] at h
    split at h
    next hc =>
      obtain ⟨rfl, hbalanced⟩ := (Text.toClosing_eq_some_iff (by decide)).1 h
      rw [hc]
      exact .braced hbalanced
    next =>
      split at h
      next hc =>
        obtain ⟨rfl, rfl⟩ := Prod.mk.inj (Option.some.inj h)
        have hword : ∀ d ∈ c :: s.takeWhile isAlphanumeric, isAlphanumeric d = true :=
          List.forall_mem_cons.2 ⟨hc, List.all_eq_true.1 List.all_takeWhile⟩
        have hstops := Text.stops_dropWhile isAlphanumeric s
        have hgroup := Group.word (List.cons_ne_nil _ _) hword hstops
        rwa [List.cons_append, List.takeWhile_append_dropWhile] at hgroup
      next => cases h

theorem Group.group? (h : Group s content after) : group? s = some (content, after) := by
  cases h with
  | braced hbalanced =>
    rw [Label.group?, if_pos rfl]
    exact (Text.toClosing_eq_some_iff (by decide)).2 ⟨rfl, hbalanced⟩
  | word hne hword hstops =>
    obtain ⟨c, word, rfl⟩ := List.exists_cons_of_ne_nil hne
    rw [List.forall_mem_cons] at hword
    have hbrace : c ≠ '{' := by
      rintro rfl
      exact absurd hword.1 (by decide +kernel)
    rw [List.cons_append, Label.group?, if_neg hbrace, if_pos hword.1,
      Text.takeWhile_append_of_stops hword.2 hstops, Text.dropWhile_append_of_stops hword.2 hstops]

theorem group?_eq_some_iff : group? s = some (content, after) ↔ Group s content after :=
  ⟨group_of_group?, Group.group?⟩

theorem group?_eq_none_iff : group? s = none ↔ ∀ content after, ¬ Group s content after := by
  rw [Option.eq_none_iff_forall_not_mem, Prod.forall]
  simp only [Option.mem_def, group?_eq_some_iff]

end

/-! ## Reading -/

/-- What a label says. -/
inductive Says : List Char → List Char → Prop
  | nil : Says [] []
  /-- The letters behind a backslash name a symbol. -/
  | symbol {word rest t : List Char} {symbol : Char} : (∀ c ∈ word, isAsciiLetter c = true) →
      Stops isAsciiLetter rest → symbol? (String.ofList word) = some symbol → Says rest t →
      Says ('\\' :: (word ++ rest)) (symbol :: t)
  /-- They name none. -/
  | unknown {word rest t : List Char} : (∀ c ∈ word, isAsciiLetter c = true) →
      Stops isAsciiLetter rest → symbol? (String.ofList word) = none → Says rest t →
      Says ('\\' :: (word ++ rest)) ('\\' :: (word ++ t))
  /-- A mark heads a group. -/
  | group {mark : Char} {s content after t u : List Char} : IsMark mark →
      Group s content after → Says content t → Says after u → Says (mark :: s) (t ++ u)
  /-- It heads none. -/
  | dangling {mark : Char} {s t : List Char} : IsMark mark →
      (∀ content after, ¬ Group s content after) → Says s t → Says (mark :: s) (mark :: t)
  | char {c : Char} {s t : List Char} : c ≠ '\\' → ¬ IsMark c → Says s t → Says (c :: s) (c :: t)

/-- Every label says something. -/
theorem exists_says (s : List Char) : ∃ t, Says s t := by
  -- words and groups take off more than one character, and a group is read on its own
  induction hn : s.length using Nat.strongRecOn generalizing s with
  | ind n ih =>
    cases s with
    | nil => exact ⟨[], .nil⟩
    | cons c s =>
      have shorter : ∀ u : List Char, u.length ≤ s.length → ∃ t, Says u t := fun u hu =>
        ih u.length (by rw [← hn]; exact Nat.lt_succ_of_le hu) u rfl
      by_cases hc : c = '\\'
      · subst hc
        obtain ⟨t, ht⟩ := shorter (s.dropWhile isAsciiLetter)
          (List.dropWhile_suffix isAsciiLetter).length_le
        have hletters : ∀ d ∈ s.takeWhile isAsciiLetter, isAsciiLetter d = true :=
          List.all_eq_true.1 List.all_takeWhile
        have hstops := Text.stops_dropWhile isAsciiLetter s
        rw [← List.takeWhile_append_dropWhile (p := isAsciiLetter) (l := s)]
        cases hsymbol : symbol? (String.ofList (s.takeWhile isAsciiLetter)) with
        | some symbol => exact ⟨_, .symbol hletters hstops hsymbol ht⟩
        | none => exact ⟨_, .unknown hletters hstops hsymbol ht⟩
      · by_cases hmark : IsMark c
        · cases hgroup : group? s with
          | some p =>
            obtain ⟨content, after⟩ := p
            have hlength := group?_length hgroup
            obtain ⟨t, ht⟩ := shorter content (by omega)
            obtain ⟨u, hu⟩ := shorter after (by omega)
            exact ⟨_, .group hmark (group_of_group? hgroup) ht hu⟩
          | none =>
            obtain ⟨t, ht⟩ := shorter s (Nat.le_refl _)
            exact ⟨_, .dangling hmark (group?_eq_none_iff.1 hgroup) ht⟩
        · obtain ⟨t, ht⟩ := shorter s (Nat.le_refl _)
          exact ⟨_, .char hc hmark ht⟩

/-! ## The characters of runs -/

mutual

/-- The characters of a run, shifted or not. -/
def runCharacters : Run → List Char
  | .char c => [c]
  | .shifted _ content => runsCharacters content

/-- The characters of a piece of text. -/
def runsCharacters : List Run → List Char
  | [] => []
  | r :: rest => runCharacters r ++ runsCharacters rest

end

theorem runsCharacters_append (rs ss : List Run) :
    runsCharacters (rs ++ ss) = runsCharacters rs ++ runsCharacters ss := by
  induction rs with
  | nil => rfl
  | cons r rs ih => rw [List.cons_append, runsCharacters, runsCharacters, ih, List.append_assoc]

theorem runsCharacters_chars (s : List Char) : runsCharacters (s.map .char) = s := by
  induction s with
  | nil => rfl
  | cons c s ih => rw [List.map_cons, runsCharacters, ih, runCharacters, List.singleton_append]

/-! ## One step of typesetting -/

section

variable {c : Char} {s word rest content after : List Char}

theorem runs_nil : runs [] = [] := by
  rw [runs]

theorem runs_escape (hword : ∀ c ∈ word, isAsciiLetter c = true)
    (hstops : Stops isAsciiLetter rest) :
    runs ('\\' :: (word ++ rest)) =
      ((symbol? (String.ofList word)).elim ('\\' :: word) ([·])).map .char ++ runs rest := by
  rw [runs, if_pos rfl, Text.takeWhile_append_of_stops hword hstops,
    Text.dropWhile_append_of_stops hword hstops]
  dsimp only
  cases symbol? (String.ofList word) <;> rfl

theorem runs_mark {shift : Shift} (hc : shift? c = some shift) :
    runs (c :: s) =
      match group? s with
      | some (content, after) => .shifted shift (runs content) :: runs after
      | none => .char c :: runs s := by
  have hne : c ≠ '\\' := by
    rintro rfl
    cases hc
  rw [runs, if_neg hne, hc]
  split
  next h => cases h
  next shift' h =>
    obtain rfl := Option.some.inj h
    split <;> rename_i heq <;> rw [heq]

theorem runs_char (hne : c ≠ '\\') (hc : ¬ IsMark c) : runs (c :: s) = .char c :: runs s := by
  rw [runs, if_neg hne, shift?_eq_none_iff.2 hc]

end

/-! ## Typesetting says what the label says -/

theorem Says.eq_runsCharacters {s t : List Char} (h : Says s t) : t = runsCharacters (runs s) := by
  induction h with
  | nil => rw [runs_nil, runsCharacters]
  | symbol hword hstops hsymbol _ ih =>
    rw [runs_escape hword hstops, hsymbol, runsCharacters_append, runsCharacters_chars, ← ih]
    rfl
  | unknown hword hstops hsymbol _ ih =>
    rw [runs_escape hword hstops, hsymbol, runsCharacters_append, runsCharacters_chars, ← ih]
    rfl
  | group hmark hgroup _ _ ihcontent ihafter =>
    obtain ⟨shift, hshift⟩ := exists_shift? hmark
    rw [runs_mark hshift, hgroup.group?, runsCharacters, runCharacters, ← ihcontent, ← ihafter]
  | dangling hmark hnone _ ih =>
    obtain ⟨shift, hshift⟩ := exists_shift? hmark
    rw [runs_mark hshift, group?_eq_none_iff.2 hnone, runsCharacters, runCharacters, ← ih]
    rfl
  | char hne hmark _ ih =>
    rw [runs_char hne hmark, runsCharacters, runCharacters, ← ih]
    rfl

theorem says_iff {s t : List Char} : Says s t ↔ t = runsCharacters (runs s) := by
  constructor
  · intro h
    exact h.eq_runsCharacters
  · rintro rfl
    obtain ⟨t, ht⟩ := exists_says s
    rw [← ht.eq_runsCharacters]
    exact ht

end FreeBody.Label
