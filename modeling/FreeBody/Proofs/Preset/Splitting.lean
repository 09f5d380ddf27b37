import FreeBody.Preset.Argument
import Mathlib.Algebra.Group.Int.Defs

/-!
# Splitting arguments

Arguments are parted by the commas that have as many opening brackets and braces in front of them,
within their argument, as closing ones.  `balance` is the difference.  A text without such a comma
is one piece (`Encloses`); where the balance returns to zero in front of a comma, what stands
behind the comma is split for itself:

    depth + balance s = 0 → split depth (s ++ ',' :: rest) = split depth s ++ split 0 rest
                                                                       (split_append_comma)
-/

namespace FreeBody.Argument

/-- How far a text leads into brackets and braces. -/
def balance : List Char → Int
  | [] => 0
  | c :: rest => nesting c + balance rest

/-- Whether no comma of `s` stands outside brackets and braces, `depth` of which are open before
it. -/
def Encloses (depth : Int) (s : List Char) : Prop :=
  ∀ before after, s = before ++ ',' :: after → depth + balance before ≠ 0

section

variable {depth : Int} {s t rest : List Char} {c : Char}

@[simp]
theorem balance_nil : balance [] = 0 := rfl

@[simp]
theorem balance_cons (c : Char) (s : List Char) : balance (c :: s) = nesting c + balance s := rfl

@[simp]
theorem balance_append (s t : List Char) : balance (s ++ t) = balance s + balance t := by
  induction s with
  | nil => simp
  | cons c s ih => rw [List.cons_append, balance_cons, balance_cons, ih, add_assoc]

theorem balance_of_forall (h : ∀ c ∈ s, nesting c = 0) : balance s = 0 := by
  induction s with
  | nil => rfl
  | cons c s ih =>
    rw [List.forall_mem_cons] at h
    rw [balance_cons, h.1, ih h.2, add_zero]

theorem encloses_nil (depth : Int) : Encloses depth [] := by
  intro before after h
  cases before <;> cases h

theorem encloses_cons_iff :
    Encloses depth (c :: s) ↔ ¬ (c = ',' ∧ depth = 0) ∧ Encloses (depth + nesting c) s := by
  constructor
  · intro h
    refine ⟨?_, fun before after hs => ?_⟩
    · rintro ⟨rfl, rfl⟩
      exact h [] s rfl rfl
    · have := h (c :: before) after (by rw [hs]; rfl)
      rwa [balance_cons, ← add_assoc] at this
  · rintro ⟨hc, hs⟩ before after h
    cases before with
    | nil =>
      obtain ⟨rfl, -⟩ := List.cons.inj h
      rw [balance_nil, add_zero]
      exact fun hdepth => hc ⟨rfl, hdepth⟩
    | cons d before =>
      obtain ⟨rfl, htail⟩ := List.cons.inj h
      rw [balance_cons, ← add_assoc]
      exact hs before after htail

theorem encloses_of_not_mem (h : ',' ∉ s) (depth : Int) : Encloses depth s := by
  rintro before after rfl
  exact absurd (List.mem_append_right before List.mem_cons_self) h

/-! ## Level text -/

/-- Whether a text closes what it opens, and nothing else. -/
structure Level (s : List Char) : Prop where
  balance_eq : balance s = 0
  nonneg : ∀ before after, s = before ++ after → 0 ≤ balance before

theorem level_of_forall (h : ∀ c ∈ s, nesting c = 0) : Level s where
  balance_eq := balance_of_forall h
  nonneg _ after hs :=
    Int.le_of_eq (balance_of_forall fun c hc => h c (hs ▸ List.mem_append_left after hc)).symm

theorem Level.append (hs : Level s) (ht : Level t) : Level (s ++ t) where
  balance_eq := by rw [balance_append, hs.balance_eq, ht.balance_eq, add_zero]
  nonneg before after h := by
    rcases List.append_eq_append_iff.1 h with ⟨m, rfl, hm⟩ | ⟨m, hm, -⟩
    · rw [balance_append, hs.balance_eq, zero_add]
      exact ht.nonneg m after hm
    · exact hs.nonneg before m hm

section

variable {opening closing : Char}

theorem Level.surround (h : Level s) (ho : nesting opening = 1) (hc : nesting closing = -1) :
    Level (opening :: (s ++ [closing])) where
  balance_eq := by simp [h.balance_eq, ho, hc]
  nonneg before after heq := by
    cases before with
    | nil => exact Int.le_refl 0
    | cons c before =>
      obtain ⟨rfl, htail⟩ := List.cons.inj heq
      rw [balance_cons, ho]
      rcases List.append_eq_append_iff.1 htail with ⟨m, rfl, hm⟩ | ⟨m, hm, -⟩
      · -- at most the closing bracket stands behind the text
        rw [balance_append, h.balance_eq]
        cases m with
        | nil => simp
        | cons d m =>
          obtain ⟨rfl, hnil⟩ := List.cons.inj hm
          obtain ⟨rfl, -⟩ := List.append_eq_nil_iff.1 hnil.symm
          simp [hc]
      · have := h.nonneg before m hm
        omega

/-- Between brackets that belong together, every comma stands inside. -/
theorem Level.encloses (h : Level s) (ho : nesting opening = 1) (hc : closing ≠ ',') :
    Encloses 0 (opening :: (s ++ [closing])) := by
  intro before after heq
  cases before with
  | nil =>
    obtain ⟨rfl, -⟩ := List.cons.inj heq
    cases ho
  | cons c before =>
    obtain ⟨rfl, htail⟩ := List.cons.inj heq
    rw [balance_cons, ho]
    rcases List.append_eq_append_iff.1 htail with ⟨m, rfl, hm⟩ | ⟨m, hm, -⟩
    · cases m with
      | nil => exact absurd (List.cons.inj hm).1 hc
      | cons d m =>
        have := congrArg List.length hm
        simp at this
    · have := h.nonneg before m hm
      omega

end

/-! ## Pieces -/

theorem split_comma (s : List Char) : split 0 (',' :: s) = [] :: split 0 s := by
  rw [split, if_pos ⟨rfl, rfl⟩]

theorem split_cons (h : ¬ (c = ',' ∧ depth = 0)) {first : List Char} {others : List (List Char)}
    (hs : split (depth + nesting c) s = first :: others) :
    split depth (c :: s) = (c :: first) :: others := by
  rw [split, if_neg h, hs]

/-- The first piece ends at a comma with the others behind it, or at the end. -/
theorem exists_split (depth : Int) (s : List Char) :
    ∃ t ts, split depth s = t :: ts ∧ Encloses depth t ∧
      ((ts = [] ∧ s = t) ∨
        ∃ rest, ts = split 0 rest ∧ s = t ++ ',' :: rest ∧ depth + balance t = 0) := by
  induction s generalizing depth with
  | nil => exact ⟨[], [], rfl, encloses_nil depth, Or.inl ⟨rfl, rfl⟩⟩
  | cons c s ih =>
    by_cases hc : c = ',' ∧ depth = 0
    · obtain ⟨rfl, rfl⟩ := hc
      exact ⟨[], _, split_comma s, encloses_nil 0, Or.inr ⟨s, rfl, rfl, rfl⟩⟩
    · obtain ⟨t, ts, hts, hencloses, h⟩ := ih (depth + nesting c)
      refine ⟨c :: t, ts, split_cons hc hts, encloses_cons_iff.2 ⟨hc, hencloses⟩, ?_⟩
      rcases h with ⟨rfl, rfl⟩ | ⟨rest, rfl, rfl, hzero⟩
      · exact Or.inl ⟨rfl, rfl⟩
      · refine Or.inr ⟨rest, rfl, rfl, ?_⟩
        rwa [balance_cons, ← add_assoc]

/-- A text is one piece exactly if no comma stands outside brackets. -/
theorem split_eq_singleton_iff : split depth s = [s] ↔ Encloses depth s := by
  induction s generalizing depth with
  | nil => exact iff_of_true rfl (encloses_nil depth)
  | cons c s ih =>
    rw [encloses_cons_iff, ← ih]
    by_cases hc : c = ',' ∧ depth = 0
    · obtain ⟨rfl, rfl⟩ := hc
      rw [split_comma]
      simp
    · obtain ⟨t, ts, hts, -⟩ := exists_split (depth + nesting c) s
      rw [split_cons hc hts, hts]
      simp [hc]

/-- Behind a comma outside brackets, a text is split for itself. -/
theorem split_append_comma (h : depth + balance s = 0) (rest : List Char) :
    split depth (s ++ ',' :: rest) = split depth s ++ split 0 rest := by
  induction s generalizing depth with
  | nil =>
    rw [balance_nil, add_zero] at h
    subst h
    exact split_comma rest
  | cons c s ih =>
    by_cases hc : c = ',' ∧ depth = 0
    · obtain ⟨rfl, rfl⟩ := hc
      rw [List.cons_append, split_comma, split_comma, ih (by simpa [nesting] using h)]
      rfl
    · rw [balance_cons, ← add_assoc] at h
      obtain ⟨t, ts, hts, -⟩ := exists_split (depth + nesting c) s
      have happend := ih h
      rw [hts] at happend
      rw [List.cons_append, split_cons hc happend, split_cons hc hts]
      rfl

end

end FreeBody.Argument
