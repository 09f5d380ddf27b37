import FreeBody.Proofs.Preset.Splitting
import FreeBody.Proofs.Text.Lines
import Mathlib.Data.List.Forall2
import Mathlib.Data.List.Infix

/-!
# Joining argument texts

A comma between two argument texts joins their arguments, as long as the first text closes as many
brackets and braces as it opens:

    balance a = 0 → readAll (a ++ ',' :: b) = (split 0 a).map (read ∘ trim) ++ readAll b
                                                                         (readAll_append_comma)

Alone, the first text drops its last piece if that is blank; this is all that can differ
(`readAll_joined`).  The last piece is told from the text alone: it is what stands behind the last
comma outside brackets and braces (`IsLastPiece`).
-/

namespace FreeBody.Argument

open Text (Blank isBlank trim)

section

variable {depth : Int} {s t a b last : List Char} {piece : List Char} {others : List (List Char)}

/-! ## Characters without a say -/

theorem nesting_eq_zero {p : Char → Bool} (hp : ∀ c ∈ ['[', '{', ']', '}'], p c = false)
    {c : Char} (h : p c = true) : nesting c = 0 := by
  have hc : ∀ b ∈ ['[', '{', ']', '}'], c ≠ b := by
    rintro b hb rfl
    rw [hp c hb] at h
    cases h
  unfold nesting
  split
  all_goals first | rfl | exact absurd rfl (hc _ (by decide))

theorem encloses_append_iff :
    Encloses depth (s ++ t) ↔ Encloses depth s ∧ Encloses (depth + balance s) t := by
  induction s generalizing depth with
  | nil => simp [encloses_nil]
  | cons c s ih =>
    rw [List.cons_append, encloses_cons_iff, encloses_cons_iff, ih, balance_cons, add_assoc,
      and_assoc]

theorem balance_blank (h : Blank s) : balance s = 0 :=
  balance_of_forall fun c hc => nesting_eq_zero (p := isBlank) (by decide) (h c hc)

theorem encloses_blank (h : Blank s) (depth : Int) : Encloses depth s :=
  encloses_of_not_mem (fun hc => absurd (h _ hc) (by decide)) depth

/-! ## The pieces of joined texts -/

theorem split_ne_nil (depth : Int) (s : List Char) : split depth s ≠ [] := by
  obtain ⟨t, ts, hts, -⟩ := exists_split depth s
  rw [hts]
  exact List.cons_ne_nil t ts

/-- Texts whose commas stand inside, all but the last with as many closing as opening brackets, are
the pieces of what they make up. -/
theorem split_intercalate {texts : List (List Char)} (hne : texts ≠ [])
    (hencloses : ∀ t ∈ texts, Encloses 0 t) (hcloses : ∀ t ∈ texts.dropLast, balance t = 0) :
    split 0 ([','].intercalate texts) = texts := by
  induction texts with
  | nil => exact absurd rfl hne
  | cons t texts ih =>
    rw [List.forall_mem_cons] at hencloses
    cases texts with
    | nil => rw [List.intercalate_singleton, split_eq_singleton_iff.2 hencloses.1]
    | cons u texts =>
      rw [List.dropLast_cons_cons, List.forall_mem_cons] at hcloses
      rw [List.intercalate_cons_cons, List.append_assoc, List.singleton_append,
        split_append_comma (by rw [hcloses.1]; rfl), split_eq_singleton_iff.2 hencloses.1,
        ih (List.cons_ne_nil u texts) hencloses.2 hcloses.2]
      rfl

/-! ## The arguments of joined texts -/

theorem ofPieces_cons (h : others ≠ []) :
    ofPieces (piece :: others) = read (trim piece) :: ofPieces others := by
  obtain ⟨other, others, rfl⟩ := List.exists_cons_of_ne_nil h
  rw [ofPieces]
  simp

/-- In front of other pieces, every piece counts. -/
theorem ofPieces_append (h : others ≠ []) (front : List (List Char)) :
    ofPieces (front ++ others) = front.map (fun p => read (trim p)) ++ ofPieces others := by
  induction front with
  | nil => rfl
  | cons p front ih =>
    rw [List.cons_append, ofPieces_cons (List.append_ne_nil_of_right_ne_nil front h), ih]
    rfl

theorem ofPieces_blank (h : Blank piece) : ofPieces [piece] = [] := by
  rw [ofPieces, Text.trim_eq_nil_iff.2 h]
  rfl

theorem ofPieces_of_not_blank (h : ¬ Blank piece) : ofPieces [piece] = [read (trim piece)] := by
  rw [ofPieces, if_neg]
  rwa [List.isEmpty_iff, Text.trim_eq_nil_iff]

/-- Behind a comma outside brackets, a text is read for itself, and in front of it every piece
counts. -/
theorem readAll_append_comma (h : balance a = 0) (b : List Char) :
    readAll (a ++ ',' :: b) = (split 0 a).map (fun p => read (trim p)) ++ readAll b := by
  rw [readAll, split_append_comma (by rw [h]; rfl), ofPieces_append (split_ne_nil 0 b)]
  rfl

/-! ## The last piece -/

/-- Whether `last` is what stands behind the last comma of `s` outside brackets and braces, all of
`s` if there is no such comma. -/
def IsLastPiece (s last : List Char) : Prop :=
  Encloses 0 last ∧ (s = last ∨ ∃ front, s = front ++ ',' :: last ∧ balance front = 0)

theorem IsLastPiece.split_eq (h : IsLastPiece s last) : ∃ front, split 0 s = front ++ [last] := by
  obtain ⟨hencloses, rfl | ⟨front, rfl, hfront⟩⟩ := h
  · exact ⟨[], split_eq_singleton_iff.2 hencloses⟩
  · refine ⟨split 0 front, ?_⟩
    rw [split_append_comma (by rw [hfront]; rfl), split_eq_singleton_iff.2 hencloses]

/-- Every text has a last piece. -/
theorem exists_isLastPiece (s : List Char) : ∃ last, IsLastPiece s last := by
  -- what stands behind the first comma outside brackets is a shorter text with the same last piece
  induction hn : s.length using Nat.strongRecOn generalizing s with
  | ind n ih =>
    obtain ⟨t, ts, -, hencloses, ⟨-, rfl⟩ | ⟨rest, -, rfl, hzero⟩⟩ := exists_split 0 s
    · exact ⟨s, hencloses, Or.inl rfl⟩
    · rw [zero_add] at hzero
      have hlt : rest.length < n := by
        rw [← hn, List.length_append, List.length_cons]
        omega
      obtain ⟨last, hlast, rfl | ⟨front, rfl, hfront⟩⟩ := ih rest.length hlt rest rfl
      · exact ⟨rest, hlast, Or.inr ⟨t, rfl, hzero⟩⟩
      · refine ⟨last, hlast, Or.inr ⟨t ++ ',' :: front, by simp, ?_⟩⟩
        rw [balance_append, balance_cons, hzero, hfront]
        rfl

theorem readAll_append_iff (hbalance : balance a = 0) (hlast : IsLastPiece a last)
    (b : List Char) :
    readAll (a ++ ',' :: b) = readAll a ++ readAll b ↔ ¬ Blank last := by
  obtain ⟨front, hfront⟩ := hlast.split_eq
  have halone : readAll a = front.map (fun p => read (trim p)) ++ ofPieces [last] := by
    rw [readAll, hfront, ofPieces_append (List.cons_ne_nil last [])]
  rw [readAll_append_comma hbalance, hfront, halone, List.map_append,
    List.append_cancel_right_eq, List.append_cancel_left_eq]
  by_cases hblank : Blank last
  · rw [ofPieces_blank hblank]
    simp [hblank]
  · rw [ofPieces_of_not_blank hblank]
    simp [hblank]

/-! ## Padded pieces -/

/-- Whether a text can stand between commas as one argument: nothing is to be trimmed, it closes as
many brackets and braces as it opens, and its commas stand inside. -/
structure IsPiece (s : List Char) : Prop where
  trimmed : trim s = s
  closes : balance s = 0
  encloses : Encloses 0 s

/-- Whether a text is a piece between blanks. -/
def Pads (piece text : List Char) : Prop :=
  ∃ u v, Blank u ∧ Blank v ∧ text = u ++ (piece ++ v)

theorem Pads.trim_eq (h : Pads piece t) (hpiece : IsPiece piece) : trim t = piece := by
  obtain ⟨u, v, hu, hv, rfl⟩ := h
  exact Text.trim_surround hu hv hpiece.trimmed

theorem Pads.balance_eq (h : Pads piece t) (hpiece : IsPiece piece) : balance t = 0 := by
  obtain ⟨u, v, hu, hv, rfl⟩ := h
  rw [balance_append, balance_append, balance_blank hu, balance_blank hv, hpiece.closes]
  rfl

theorem Pads.encloses (h : Pads piece t) (hpiece : IsPiece piece) : Encloses 0 t := by
  obtain ⟨u, v, hu, hv, rfl⟩ := h
  rw [encloses_append_iff, encloses_append_iff, balance_blank hu, zero_add]
  exact ⟨encloses_blank hu 0, hpiece.encloses, encloses_blank hv _⟩

theorem Pads.blank_iff (h : Pads piece t) (hpiece : IsPiece piece) : Blank t ↔ piece = [] := by
  rw [← Text.trim_eq_nil_iff, h.trim_eq hpiece]

theorem ofPieces_padded {pieces texts : List (List Char)} (hpieces : ∀ p ∈ pieces, IsPiece p)
    (hlast : pieces.getLast? ≠ some []) (hpads : List.Forall₂ Pads pieces texts) :
    ofPieces texts = pieces.map read := by
  induction hpads with
  | nil => rfl
  | @cons p text pieces texts hp hrest ih =>
    rw [List.forall_mem_cons] at hpieces
    cases hrest with
    | nil =>
      have hne : p ≠ [] := fun h => hlast (by rw [h]; rfl)
      have hblank : ¬ Blank text := by rwa [hp.blank_iff hpieces.1]
      rw [ofPieces_of_not_blank hblank, hp.trim_eq hpieces.1]
      rfl
    | cons hq hrest =>
      rw [List.getLast?_cons_cons] at hlast
      rw [ofPieces_cons (List.cons_ne_nil _ _), ih hpieces.2 hlast, hp.trim_eq hpieces.1]
      rfl

theorem readAll_padded {pieces texts : List (List Char)} (hpieces : ∀ p ∈ pieces, IsPiece p)
    (hlast : pieces.getLast? ≠ some []) (hpads : List.Forall₂ Pads pieces texts) :
    readAll ([','].intercalate texts) = pieces.map read := by
  have hparts : ∀ t ∈ texts, balance t = 0 ∧ Encloses 0 t := by
    clear hlast
    induction hpads with
    | nil => exact List.forall_mem_nil _
    | cons hp _ ih =>
      rw [List.forall_mem_cons] at hpieces ⊢
      exact ⟨⟨hp.balance_eq hpieces.1, hp.encloses hpieces.1⟩, ih hpieces.2⟩
  by_cases hne : texts = []
  · subst hne
    cases hpads
    rfl
  · rw [readAll, split_intercalate hne (fun t ht => (hparts t ht).2)
      (fun t ht => (hparts t (List.mem_of_mem_dropLast ht)).1), ofPieces_padded hpieces hlast hpads]

end

/-- **Joining texts joins their arguments.**  Behind a text that closes as many brackets and braces
as it opens, a comma and another text add the arguments of that text, exactly if the last piece of
the first one is not blank.  Pieces between commas, with any blanks around them, are read one by
one; an empty piece, unless it is the last, is an empty text. -/
theorem readAll_joined :
    (∀ a b, balance a = 0 → (∃ last, IsLastPiece a last) ∧ ∀ last, IsLastPiece a last →
      (readAll (a ++ ',' :: b) = readAll a ++ readAll b ↔ ¬ Blank last)) ∧
    (∀ pieces texts, (∀ p ∈ pieces, IsPiece p) → pieces.getLast? ≠ some [] →
      List.Forall₂ Pads pieces texts →
      readAll ([','].intercalate texts) = pieces.map read) ∧
    read [] = .text "" := by
  refine ⟨fun a b hbalance => ⟨exists_isLastPiece a, fun last hlast => ?_⟩, ?_, rfl⟩
  · exact readAll_append_iff hbalance hlast b
  · intro pieces texts hpieces hlast hpads
    exact readAll_padded hpieces hlast hpads

/-- The first bracket closes and the second opens, so that the comma between them does not count;
and an empty piece stands between two others. -/
theorem readAll_joined_unordered :
    (balance "],[,é".toList = 0 ∧ IsLastPiece "],[,é".toList ['é'] ∧ ¬ Blank ['é'] ∧
      readAll ("],[,é".toList ++ ',' :: "{a,b},7".toList) =
        readAll "],[,é".toList ++ readAll "{a,b},7".toList) ∧
    readAll "[1,2] ,, x".toList = [read "[1,2]".toList, .text "", read ['x']] := by
  have hbalance : balance "],[,é".toList = 0 := rfl
  have hlast : IsLastPiece "],[,é".toList ['é'] :=
    ⟨encloses_of_not_mem (by decide) 0, Or.inr ⟨"],[".toList, rfl, rfl⟩⟩
  have hblank : ¬ Blank ['é'] := fun h => absurd (h 'é' List.mem_cons_self) (by decide)
  obtain ⟨hjoin, hpieces, hempty⟩ := readAll_joined
  refine ⟨⟨hbalance, hlast, hblank, ((hjoin _ _ hbalance).2 _ hlast).2 hblank⟩, ?_⟩
  rw [← hempty]
  refine hpieces ["[1,2]".toList, [], ['x']] ["[1,2] ".toList, [], " x".toList] ?_ (by decide) ?_
  · have hlevel : Level "1,2".toList := level_of_forall (by decide)
    simp only [List.forall_mem_cons]
    exact ⟨⟨by decide, rfl, hlevel.encloses rfl (by decide)⟩, ⟨rfl, rfl, encloses_nil 0⟩,
      ⟨by decide, rfl, encloses_of_not_mem (by decide) 0⟩, List.forall_mem_nil _⟩
  · have hspace : Blank [' '] := List.forall_mem_singleton.2 rfl
    have hnone : Blank [] := List.forall_mem_nil _
    exact .cons ⟨[], [' '], hnone, hspace, rfl⟩ (.cons ⟨[], [], hnone, hnone, rfl⟩
      (.cons ⟨[' '], [], hspace, hnone, rfl⟩ .nil))

end FreeBody.Argument
