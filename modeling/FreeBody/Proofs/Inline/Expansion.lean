import FreeBody.Inline.Placeholder
import FreeBody.Proofs.Decimal.Digits
import FreeBody.Proofs.Text.Pieces

/-!
# What expansion makes of a text

Expanded text is described by two lists: the diagrams that are drawn, and the text before,
between and after them, one part more than there are diagrams.  `expand` is governed by three
equations, one for each thing it can meet: a token that names a diagram, a token that names none,
and a character at which no token begins.

Prose that stands in front of other text is given back whole exactly if it reads as text: each
token in it names no diagram, and no token begins in it and ends behind it.

    ReadsAsText n next g → gaps (expand ds (g ++ t)) = glue g (gaps (expand ds t))
                                                       (gaps_expand_of_readsAsText)
    gaps (expand ds (g ++ t)) = g :: gs → ReadsAsText n next g      (readsAsText_of_gaps)
-/

namespace FreeBody.Inline

/-! ## Tokens -/

/-- The token with the digits `ds` as it is written. -/
def tokenText (ds : List Char) : List Char := "__FBD_".toList ++ ds ++ "__".toList

theorem toList_placeholder (k : Nat) : (placeholder k).toList = tokenText (Decimal.digits k) := by
  unfold placeholder tokenText
  rw [String.toList_append, String.toList_append, Decimal.toList_toString]

theorem tokenText_append (ds after : List Char) :
    tokenText ds ++ after = "__FBD_".toList ++ (ds ++ ("__".toList ++ after)) := by
  unfold tokenText
  simp only [List.append_assoc]

theorem tokenText_eq_cons (ds : List Char) :
    tokenText ds = '_' :: '_' :: 'F' :: 'B' :: 'D' :: '_' :: (ds ++ ['_', '_']) := rfl

theorem length_tokenText (ds : List Char) : (tokenText ds).length = ds.length + 8 := by
  rw [tokenText_eq_cons]
  simp

theorem stops_underscores (after : List Char) :
    Text.Stops Decimal.isDigit ("__".toList ++ after) :=
  Text.stops_cons_iff.2 (by decide)

theorem token?_eq_some_iff {s ds after : List Char} :
    token? s = some (ds, after) ↔
      s = tokenText ds ++ after ∧ ds ≠ [] ∧ ∀ c ∈ ds, Decimal.isDigit c = true := by
  constructor
  · intro h
    obtain ⟨body, hb, h⟩ := Option.bind_eq_some_iff.1 h
    obtain ⟨rest, hr, h⟩ := Option.bind_eq_some_iff.1 h
    split at h
    next => cases h
    next hne =>
      obtain ⟨rfl, rfl⟩ := Prod.mk.inj (Option.some.inj h)
      rw [Text.dropPrefix?_eq_some_iff] at hb hr
      refine ⟨?_, by simpa using hne, fun c hc => List.all_eq_true.1 List.all_takeWhile c hc⟩
      rw [tokenText_append, ← hr, List.takeWhile_append_dropWhile, hb]
  · rintro ⟨rfl, hne, hd⟩
    have hb : Text.dropPrefix? "__FBD_".toList (tokenText ds ++ after) =
        some (ds ++ ("__".toList ++ after)) :=
      Text.dropPrefix?_eq_some_iff.2 (tokenText_append ds after)
    have hr : Text.dropPrefix? "__".toList ("__".toList ++ after) = some after :=
      Text.dropPrefix?_eq_some_iff.2 rfl
    rw [token?, hb, Option.bind_eq_bind, Option.bind_some,
      Text.dropWhile_append_of_stops hd (stops_underscores after),
      Text.takeWhile_append_of_stops hd (stops_underscores after), hr]
    simp [hne]

/-- A token at the front of a text is there whatever follows the text. -/
theorem token?_append {s ds after : List Char} (h : token? s = some (ds, after))
    (more : List Char) : token? (s ++ more) = some (ds, after ++ more) := by
  obtain ⟨rfl, hne, hd⟩ := token?_eq_some_iff.1 h
  exact token?_eq_some_iff.2 ⟨List.append_assoc .., hne, hd⟩

theorem token?_placeholder (k : Nat) (rest : List Char) :
    token? (tokenText (Decimal.digits k) ++ rest) = some (Decimal.digits k, rest) :=
  token?_eq_some_iff.2
    ⟨rfl, Decimal.digits_ne_nil k, fun _ hc => Decimal.isDigit_of_mem_digits hc⟩

/-! ## One step of expansion -/

section

variable {α : Type} {diagrams : List α} {s ds after : List Char}

theorem expand_nil : expand diagrams [] = [] := by
  rw [expand]
  rfl

theorem expand_of_named {d : α} (h : token? s = some (ds, after))
    (hd : named? diagrams ds = some d) :
    expand diagrams s = .diagram d :: expand diagrams after := by
  rw [expand]
  split
  next ds' after' h' =>
    obtain ⟨rfl, rfl⟩ := Prod.mk.inj (Option.some.inj (h'.symm.trans h))
    rw [hd]
  next h' => cases h'.symm.trans h

theorem expand_of_unnamed (h : token? s = some (ds, after)) (hd : named? diagrams ds = none) :
    expand diagrams s = addText (tokenText ds) (expand diagrams after) := by
  have hs : s.take (s.length - after.length) = tokenText ds := by
    obtain ⟨rfl, -⟩ := token?_eq_some_iff.1 h
    rw [List.length_append, Nat.add_sub_cancel, List.take_left]
  rw [expand]
  split
  next ds' after' h' =>
    obtain ⟨rfl, rfl⟩ := Prod.mk.inj (Option.some.inj (h'.symm.trans h))
    rw [hd, ← hs]
  next h' => cases h'.symm.trans h

theorem expand_of_char {c : Char} (h : token? (c :: s) = none) :
    expand diagrams (c :: s) = addText [c] (expand diagrams s) := by
  rw [expand]
  split
  next h' => cases h'.symm.trans h
  next => rfl

end

/-! ## Diagrams and gaps -/

section

variable {α : Type}

/-- The diagrams among segments, in order. -/
def drawn : List (Segment α) → List α
  | [] => []
  | .text _ :: rest => drawn rest
  | .diagram d :: rest => d :: drawn rest

/-- `s` put in front of the first part. -/
def glue (s : List Char) : List (List Char) → List (List Char)
  | [] => [s]
  | g :: gs => (s ++ g) :: gs

/-- The text before, between and after the diagrams. -/
def gaps : List (Segment α) → List (List Char)
  | [] => [[]]
  | .text s :: rest => glue s (gaps rest)
  | .diagram _ :: rest => [] :: gaps rest

theorem glue_glue (s t : List Char) (gs : List (List Char)) :
    glue s (glue t gs) = glue (s ++ t) gs := by
  cases gs with
  | nil => rfl
  | cons g gs => rw [glue, glue, glue, List.append_assoc]

theorem gaps_ne_nil (segments : List (Segment α)) : gaps segments ≠ [] := by
  cases segments with
  | nil => exact List.cons_ne_nil _ _
  | cons segment rest =>
    cases segment with
    | diagram d => exact List.cons_ne_nil _ _
    | text s =>
      rw [gaps]
      cases gaps rest <;> exact List.cons_ne_nil _ _

theorem drawn_addText (s : List Char) (segments : List (Segment α)) :
    drawn (addText s segments) = drawn segments := by
  unfold addText
  split <;> rfl

theorem gaps_addText (s : List Char) (segments : List (Segment α)) :
    gaps (addText s segments) = glue s (gaps segments) := by
  unfold addText
  split
  next more rest => rw [gaps, gaps, glue_glue]
  next => rfl

end

/-! ## Prose that reads as text -/

/-- Prose in which every token has a number from `count` on, and no token begins that needs
`next` to end. -/
inductive ReadsAsText (count : Nat) (next : List Char) : List Char → Prop
  | nil : ReadsAsText count next []
  | token {ds rest : List Char} : ds ≠ [] → (∀ c ∈ ds, Decimal.isDigit c = true) →
      count ≤ Decimal.value ds → ReadsAsText count next rest →
      ReadsAsText count next (tokenText ds ++ rest)
  | char {c : Char} {rest : List Char} : token? (c :: (rest ++ next)) = none →
      ReadsAsText count next rest → ReadsAsText count next (c :: rest)

/-- Of the text `t` behind prose, a token that begins in the prose can use no more than `next`. -/
structure Meets (next t : List Char) : Prop where
  starts : ∃ more, t = next ++ more
  stops : ∀ c g, token? (c :: (g ++ next)) = none → token? (c :: (g ++ t)) = none

theorem meets_end : Meets [] [] := ⟨⟨[], rfl⟩, fun _ _ h => h⟩

/-- A token in front of another ends within its two underscores: the `F` behind these could only
be the third character of the first token. -/
theorem token?_ends_before {c : Char} {g ds after more : List Char}
    (h : token? (c :: (g ++ '_' :: '_' :: 'F' :: more)) = some (ds, after)) :
    ∃ rest, token? (c :: (g ++ ['_', '_'])) = some (ds, rest) := by
  obtain ⟨he, hne, hd⟩ := token?_eq_some_iff.1 h
  have he' : (c :: (g ++ ['_', '_'])) ++ 'F' :: more = tokenText ds ++ after := by
    rw [← he]
    simp only [List.cons_append, List.append_assoc, List.nil_append]
  rcases List.append_eq_append_iff.1 he' with ⟨as, hs, hm⟩ | ⟨bs, hs, -⟩
  · cases as with
    | nil =>
      refine ⟨[], token?_eq_some_iff.2 ⟨?_, hne, hd⟩⟩
      rw [hs, List.append_nil, List.append_nil]
    | cons a as =>
      exfalso
      have hF : 'F' ∉ 'B' :: 'D' :: '_' :: (ds ++ ['_', '_']) := by
        simp only [List.mem_cons, List.mem_append, not_or]
        refine ⟨by decide, by decide, by decide, fun hin => ?_, by decide⟩
        have := hd 'F' hin
        revert this
        decide
      rw [List.cons_append, List.cons.injEq] at hm
      rw [← hm.1, tokenText_eq_cons] at hs
      match g with
      | [] => simp at hs
      | [x] => simp at hs
      | x :: y :: g =>
        simp only [List.cons_append, List.cons.injEq] at hs
        apply hF
        rw [hs.2.2.2]
        simp
  · exact ⟨bs, token?_eq_some_iff.2 ⟨hs, hne, hd⟩⟩

theorem meets_token (ds after : List Char) : Meets ['_', '_'] (tokenText ds ++ after) := by
  refine ⟨⟨_, rfl⟩, fun c g h => ?_⟩
  rw [tokenText_eq_cons]
  cases hs : token? (c :: (g ++
      ('_' :: '_' :: 'F' :: 'B' :: 'D' :: '_' :: (ds ++ ['_', '_']) ++ after))) with
  | none => rfl
  | some p =>
    obtain ⟨rest, hr⟩ := token?_ends_before hs
    cases hr.symm.trans h

section

variable {α : Type} {diagrams : List α} {next t g : List Char}

theorem named?_eq_none_iff {ds : List Char} :
    named? diagrams ds = none ↔ diagrams.length ≤ Decimal.value ds :=
  List.getElem?_eq_none_iff

/-- Expansion draws the given diagrams only. -/
theorem mem_of_mem_drawn_expand {s : List Char} {d : α} (h : d ∈ drawn (expand diagrams s)) :
    d ∈ diagrams := by
  fun_induction expand diagrams s with
  | case1 s ds after _ named hnamed ih =>
    rcases List.mem_cons.1 h with rfl | h
    · exact List.mem_of_getElem? hnamed
    · exact ih h
  | case2 s ds after _ _ ih => exact ih (drawn_addText _ _ ▸ h)
  | case3 => cases h
  | case4 c rest _ ih => exact ih (drawn_addText _ _ ▸ h)

/-- Prose that reads as text stays whole. -/
theorem gaps_expand_of_readsAsText (hm : Meets next t)
    (h : ReadsAsText diagrams.length next g) :
    gaps (expand diagrams (g ++ t)) = glue g (gaps (expand diagrams t)) ∧
      drawn (expand diagrams (g ++ t)) = drawn (expand diagrams t) := by
  induction h with
  | nil =>
    refine ⟨?_, rfl⟩
    rw [List.nil_append]
    cases h : gaps (expand diagrams t) with
    | nil => exact absurd h (gaps_ne_nil _)
    | cons g gs => rfl
  | @token ds rest hne hd hv _ ih =>
    have ht : token? (tokenText ds ++ rest ++ t) = some (ds, rest ++ t) :=
      token?_eq_some_iff.2 ⟨List.append_assoc .., hne, hd⟩
    rw [expand_of_unnamed ht (named?_eq_none_iff.2 hv), gaps_addText, drawn_addText, ih.1, ih.2,
      glue_glue]
    exact ⟨rfl, rfl⟩
  | @char c rest hc _ ih =>
    rw [List.cons_append, expand_of_char (hm.stops c rest hc), gaps_addText, drawn_addText, ih.1,
      ih.2, glue_glue]
    exact ⟨rfl, rfl⟩

/-- Prose that stays whole reads as text. -/
theorem readsAsText_of_gaps (hm : Meets next t) {gs : List (List Char)}
    (h : gaps (expand diagrams (g ++ t)) = g :: gs) : ReadsAsText diagrams.length next g := by
  -- the induction is on the length of the prose, since a token takes off more than one character
  induction hn : g.length using Nat.strongRecOn generalizing g gs with
  | ind n ih =>
    match g with
    | [] => exact .nil
    | c :: g =>
      cases ht : token? (c :: (g ++ t)) with
      | none =>
        rw [List.cons_append, expand_of_char ht, gaps_addText] at h
        obtain ⟨k, ks, hk⟩ := List.exists_cons_of_ne_nil (gaps_ne_nil (expand diagrams (g ++ t)))
        rw [hk, glue, List.cons.injEq, List.singleton_append, List.cons.injEq] at h
        obtain ⟨⟨-, rfl⟩, rfl⟩ := h
        refine .char ?_ (ih k.length (by rw [← hn]; exact Nat.lt_succ_self _) hk rfl)
        cases hs : token? (c :: (k ++ next)) with
        | none => rfl
        | some p =>
          obtain ⟨more, rfl⟩ := hm.starts
          have := token?_append hs more
          rw [List.cons_append, List.append_assoc] at this
          cases this.symm.trans ht
      | some p =>
        obtain ⟨ds, after⟩ := p
        cases hd : named? diagrams ds with
        | some d =>
          rw [List.cons_append, expand_of_named ht hd, gaps] at h
          cases h
        | none =>
          rw [List.cons_append, expand_of_unnamed ht hd, gaps_addText] at h
          obtain ⟨k, ks, hk⟩ := List.exists_cons_of_ne_nil (gaps_ne_nil (expand diagrams after))
          rw [hk, glue, List.cons.injEq] at h
          obtain ⟨he, hne, hdig⟩ := token?_eq_some_iff.1 ht
          have ha : after = k ++ t := by
            rw [← List.cons_append, ← h.1, List.append_assoc] at he
            exact (List.append_cancel_left he).symm
          rw [ha] at hk
          have hlt : k.length < n := by
            rw [← hn, ← h.1, List.length_append, length_tokenText]
            omega
          rw [← h.1]
          exact .token hne hdig (named?_eq_none_iff.1 hd) (ih k.length hlt hk rfl)

end

end FreeBody.Inline
