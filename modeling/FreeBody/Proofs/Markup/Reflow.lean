import FreeBody.Proofs.Markup.Tags
import FreeBody.Proofs.Text.Lines
import Mathlib.Data.List.Forall2

/-!
# Markup laid out again

Exchanging line ends reaches into the text and the attribute values of markup, but not its
structure: what was content is content, with the same tags up to line ends in their values, and
elements of a class have the same contents up to line ends (`Content.reflow`).

So two texts with the same lines are read alike (`Content.relaid`).
-/

namespace FreeBody.Markup

open Text (Reflow isBlank contentLines)

/-! ## Escaped text -/

theorem isBlank_of_mem_entity : ∀ e ∈ entities, ∀ c ∈ e, isBlank c = false := by decide

/-- A beginning without blanks is kept. -/
theorem isPrefix_reflow {e s t : List Char} (he : ∀ c ∈ e, isBlank c = false) (h : e <+: s)
    (hr : Reflow s t) : e <+: t := by
  induction e generalizing s t with
  | nil => exact List.nil_prefix
  | cons c e ih =>
    rw [List.forall_mem_cons] at he
    obtain ⟨rest, rfl⟩ := h
    obtain ⟨t', rfl, ht⟩ := Reflow.cons he.1 hr
    exact List.cons_prefix_cons.2 ⟨rfl, ih he.2 (List.prefix_append e rest) ht⟩

theorem EntitiesOnly.reflow {s t : List Char} (h : EntitiesOnly s) (hr : Reflow s t) :
    EntitiesOnly t := by
  rintro before after rfl
  obtain ⟨before', after', rfl, -, hafter⟩ := hr.symm.split (by decide)
  obtain ⟨e, he, hp⟩ := h before' after' rfl
  exact ⟨e, he, isPrefix_reflow (isBlank_of_mem_entity e he) hp (.char '&' hafter.symm)⟩

theorem Escaped.reflow {reserved s t : List Char} (hreserved : ∀ c ∈ reserved, isBlank c = false)
    (h : Escaped reserved s) (hr : Reflow s t) : Escaped reserved t :=
  ⟨fun c hc hm => h.free c hc (hr.mem_of_nonblank (hreserved c hc) hm), h.entitiesOnly.reflow hr⟩

/-! ## Tags -/

theorem isBlank_of_mem_name {name : List Char} (h : isName name) :
    ∀ c ∈ name, isBlank c = false := by
  intro c hc
  have hname := nameChar_of_mem h hc
  simp only [isAsciiLetter, isAsciiDigit, Bool.or_eq_true, Bool.and_eq_true, decide_eq_true_eq,
    beq_iff_eq, Char.le_def, UInt32.le_iff_toNat_le] at hname
  rcases hname with ((hname | hname) | hname) | rfl
  · exact Text.isBlank_of_printed (Nat.le_trans (by decide) hname.1)
      (Nat.le_trans hname.2 (by decide))
  · exact Text.isBlank_of_printed (Nat.le_trans (by decide) hname.1)
      (Nat.le_trans hname.2 (by decide))
  · exact Text.isBlank_of_printed (Nat.le_trans (by decide) hname.1)
      (Nat.le_trans hname.2 (by decide))
  · rfl

/-- Attributes with one name, of which the values differ in line ends. -/
def Keeps (a b : List Char × List Char) : Prop := a.1 = b.1 ∧ Reflow a.2 b.2

theorem Attributes.reflow {names : List (List Char)} {s t : List Char} (h : Attributes names s)
    (hr : Reflow s t) : Attributes names t ∧ ∀ lead, '"' ∉ lead →
      List.Forall₂ Keeps (pairs (Text.pieces '"' (lead ++ s)))
        (pairs (Text.pieces '"' (lead ++ t))) := by
  induction h generalizing t with
  | nil =>
    obtain rfl := hr.eq_of_not_mem List.not_mem_nil
    refine ⟨.nil, fun lead hlead => ?_⟩
    rw [List.append_nil, Text.pieces_of_not_mem hlead]
    exact .nil
  | @cons name value s names hn hv _ ih =>
    -- the name and its quote are kept, as no line feed stands before them
    have hcut : ' ' :: name ++ '=' :: '"' :: value ++ '"' :: s =
        (' ' :: name ++ ['=']) ++ '"' :: (value ++ '"' :: s) := by simp
    rw [hcut] at hr
    obtain ⟨front, rest, rfl, hfront, hrest⟩ := hr.split (by decide)
    have hline : '\n' ∉ ' ' :: name ++ ['='] := by
      simpa using special_not_mem_of_isName hn '\n' (by simp)
    obtain rfl := hfront.eq_of_not_mem hline
    obtain ⟨value', s', rfl, hvalue, hs⟩ := hrest.split (by decide)
    obtain ⟨hattributes, hpairs⟩ := ih hs
    have hv' := hv.reflow (by decide) hvalue
    have hcut' : ' ' :: name ++ ['='] ++ '"' :: (value' ++ '"' :: s') =
        ' ' :: name ++ '=' :: '"' :: value' ++ '"' :: s' := by simp
    rw [hcut']
    refine ⟨.cons hn hv' hattributes, fun lead hlead => ?_⟩
    rw [pairs_pieces hlead hn (hv.free '"' (by decide)),
      pairs_pieces hlead hn (hv'.free '"' (by decide))]
    exact .cons ⟨rfl, hvalue⟩ (hpairs [] List.not_mem_nil)

theorem Inside.reflow {name x y : List Char} (h : Inside name x) (hr : Reflow x y) :
    Inside name y ∧ List.Forall₂ Keeps (Markup.attributes x) (Markup.attributes y) := by
  obtain ⟨hn, names, rest, ha, hnodup, rfl⟩ := h
  -- behind the name stands a blank that is not exchanged, or nothing
  have hname : ∃ rest', y = name ++ rest' ∧ Reflow rest rest' := by
    have hnonblank := isBlank_of_mem_name hn
    clear hn ha
    induction name generalizing y with
    | nil => exact ⟨y, rfl, hr⟩
    | cons c name ih =>
      rw [List.forall_mem_cons] at hnonblank
      obtain ⟨y', rfl, hy⟩ := Reflow.cons hnonblank.1 hr
      obtain ⟨rest', rfl, hrest⟩ := ih hy hnonblank.2
      exact ⟨rest', rfl, hrest⟩
  obtain ⟨rest', rfl, hrest⟩ := hname
  obtain ⟨hattributes, hpairs⟩ := ha.reflow hrest
  exact ⟨⟨hn, names, rest', hattributes, hnodup, rfl⟩,
    hpairs name (special_not_mem_of_isName hn '"' (by simp))⟩

theorem hasClass_of_keeps {cls x y : List Char} (hcls : '\n' ∉ cls)
    (h : List.Forall₂ Keeps (attributes x) (attributes y)) (hx : HasClass cls x) :
    HasClass cls y := by
  unfold HasClass at hx ⊢
  generalize attributes x = xs at h hx
  generalize attributes y = ys at h ⊢
  induction h with
  | nil => cases hx
  | @cons a b as bs hab _ ih =>
    rcases List.mem_cons.1 hx with rfl | hx
    · have hvalue := hab.2.eq_of_not_mem hcls
      have hb : b = ("class".toList, cls) := Prod.ext hab.1.symm hvalue
      exact hb ▸ List.mem_cons_self
    · exact List.mem_cons_of_mem b (ih hx)

theorem hasClass_reflow {cls name x y : List Char} (hcls : '\n' ∉ cls) (h : Inside name x)
    (hr : Reflow x y) : HasClass cls x ↔ HasClass cls y :=
  ⟨hasClass_of_keeps hcls (h.reflow hr).2,
    hasClass_of_keeps hcls ((h.reflow hr).1.reflow hr.symm).2⟩

/-! ## Content -/

/-- What is kept of content `s` when it is reflowed to `t`. -/
structure KeptContent (named : List Char → Prop) (cls s t : List Char) : Prop where
  content : Content named t
  tags : List.Forall₂ Reflow (tags s) (tags t)
  contents : List.Forall₂ Reflow (classContents cls s) (classContents cls t)

section

variable {named : List Char → Prop} {cls name x y s t : List Char}

theorem KeptContent.text_append {p q : List Char} (hp : '<' ∉ p) (hq : Escaped textReserved q)
    (h : KeptContent named cls s t) : KeptContent named cls (p ++ s) (q ++ t) := by
  have hless := hq.free '<' (by decide)
  refine ⟨.text hq h.content, ?_, ?_⟩
  · rw [tags_append_of_not_mem hp, tags_append_of_not_mem hless]
    exact h.tags
  · rw [classContents_append_of_not_mem hp, classContents_append_of_not_mem hless]
    exact h.contents

variable (hcls : '\n' ∉ cls)

include hcls

theorem KeptContent.closed (hn : named name) (hi : Inside name x) (hr : Reflow x y)
    (h : KeptContent named cls s t) :
    KeptContent named cls ('<' :: (x ++ ['/']) ++ '>' :: s) ('<' :: (y ++ ['/']) ++ '>' :: t) := by
  have hi' := (hi.reflow hr).1
  have hclass : HasClass cls (x ++ ['/']) ↔ HasClass cls (y ++ ['/']) := by
    unfold HasClass
    rw [attributes_closed hi, attributes_closed hi']
    exact hasClass_reflow hcls hi hr
  refine ⟨closed_eq y t ▸ .closed hn hi' h.content, ?_, ?_⟩
  · rw [tags_tag hi.unbracketed_closed, tags_tag hi'.unbracketed_closed]
    exact .cons (hr.append (.refl ['/'])) h.tags
  · rw [classContents_closed hi, classContents_closed hi']
    refine List.rel_append ?_ h.contents
    by_cases hc : HasClass cls (x ++ ['/'])
    · rw [if_pos hc, if_pos (hclass.1 hc)]
      exact .cons .nil .nil
    · rw [if_neg hc, if_neg (fun h => hc (hclass.2 h))]
      exact .nil

theorem KeptContent.element {inner inner' : List Char} (hn : named name) (hi : Inside name x)
    (hr : Reflow x y) (hc : Content named inner) (hri : Reflow inner inner')
    (hinner : KeptContent named cls inner inner') (h : KeptContent named cls s t) :
    KeptContent named cls ('<' :: x ++ '>' :: (inner ++ ('<' :: ('/' :: name) ++ '>' :: s)))
      ('<' :: y ++ '>' :: (inner' ++ ('<' :: ('/' :: name) ++ '>' :: t))) := by
  have hi' := (hi.reflow hr).1
  have hclass := hasClass_reflow hcls hi hr
  refine ⟨element_eq y inner' name t ▸ .element hn hi' hinner.content h.content, ?_, ?_⟩
  · rw [tags_element hi, tags_element hi', hc.tags_append, hinner.content.tags_append,
      tags_tag hi.unbracketed_end, tags_tag hi.unbracketed_end]
    exact .cons hr (List.rel_append hinner.tags (.cons (.refl _) h.tags))
  · rw [classContents_element hi hc, classContents_element hi' hinner.content,
      hc.classContents_append, hinner.content.classContents_append, classContents_endTag hi,
      classContents_endTag hi]
    refine List.rel_append ?_ (List.rel_append hinner.contents h.contents)
    by_cases hcx : HasClass cls x
    · rw [if_pos hcx, if_pos (hclass.1 hcx)]
      exact .cons hri .nil
    · rw [if_neg hcx, if_neg (fun h => hcx (hclass.2 h))]
      exact .nil

/-- Content keeps its structure when line ends are exchanged; `p` is text in front of it that was
not parted from it yet, since an exchange may reach from one text into the next. -/
theorem Content.reflow_behind (h : Content named s) {p : List Char} (hp : Escaped textReserved p)
    (hr : Reflow (p ++ s) y) : KeptContent named cls (p ++ s) y := by
  induction h generalizing p y with
  | nil =>
    rw [List.append_nil] at hr
    have hkept : KeptContent named cls [] [] := ⟨.nil, .nil, .nil⟩
    have := hkept.text_append (hp.free '<' (by decide)) (hp.reflow (by decide) hr)
    rwa [List.append_nil y] at this
  | text ht _ ih =>
    rw [← List.append_assoc] at hr ⊢
    exact ih (hp.append ht) hr
  | @closed name inside s hn hi hs ih =>
    rw [closed_eq] at hr ⊢
    obtain ⟨q, rest, rfl, hq, hrest⟩ := hr.split (by decide)
    obtain ⟨x, t, rfl, hx, ht⟩ := hrest.split (by decide)
    obtain ⟨x, final, rfl, hinside, hfinal⟩ := hx.split (by decide)
    obtain rfl := hfinal.eq_of_not_mem List.not_mem_nil
    have hkept := ih escaped_nil ht
    exact (hkept.closed hcls hn hi hinside).text_append (hp.free '<' (by decide))
      (hp.reflow (by decide) hq)
  | @element name inside inner s hn hi hinner hs ihinner ih =>
    rw [element_eq] at hr ⊢
    obtain ⟨q, rest, rfl, hq, hrest⟩ := hr.split (by decide)
    obtain ⟨x, rest, rfl, hx, hrest⟩ := hrest.split (by decide)
    obtain ⟨inner', rest, rfl, hri, hrest⟩ := hrest.split (by decide)
    obtain ⟨finish, t, rfl, hfinish, ht⟩ := hrest.split (by decide)
    have hline : '\n' ∉ '/' :: name := by
      simpa using special_not_mem_of_isName hi.called '\n' (by simp)
    obtain rfl := hfinish.eq_of_not_mem hline
    have hkept := (ihinner escaped_nil hri).element hcls hn hi hx hinner hri (ih escaped_nil ht)
    exact hkept.text_append (hp.free '<' (by decide)) (hp.reflow (by decide) hq)

/-- **Content is kept when line ends are exchanged.** -/
theorem Content.reflow (h : Content named s) (hr : Reflow s t) : KeptContent named cls s t :=
  h.reflow_behind hcls escaped_nil hr

end

/-! ## Ends -/

section

variable {named : List Char → Prop} {s t : List Char}

theorem EntitiesOnly.of_cons {c : Char} (h : EntitiesOnly (c :: s)) : EntitiesOnly s := by
  rintro before after rfl
  exact h (c :: before) after rfl

theorem EntitiesOnly.of_concat {c : Char} (hc : isBlank c = true) (h : EntitiesOnly (s ++ [c])) :
    EntitiesOnly s := by
  rintro before after rfl
  obtain ⟨e, he, hp⟩ := h before (after ++ [c]) (by simp)
  refine ⟨e, he, ?_⟩
  rw [← List.cons_append] at hp
  rcases List.prefix_concat_iff.1 hp with rfl | hp
  · have := isBlank_of_mem_entity _ he c (by simp)
    rw [hc] at this
    cases this
  · exact hp

theorem content_of_cons {c : Char} (hc : c ≠ '<') (h : Content named (c :: s)) :
    Content named s := by
  generalize hs : c :: s = s' at h
  induction h with
  | nil => cases hs
  | @text p rest hp hrest ih =>
    cases p with
    | nil => exact ih hs
    | cons d p =>
      obtain ⟨rfl, rfl⟩ := List.cons.inj hs
      exact .text ⟨fun r hr hm => hp.free r hr (List.mem_cons_of_mem _ hm), hp.entitiesOnly.of_cons⟩
        hrest
  | closed _ _ _ _ => exact absurd (List.cons.inj hs).1 hc
  | element _ _ _ _ _ _ => exact absurd (List.cons.inj hs).1 hc

/-- The last character of a text is that of its second part, unless it is that of the first. -/
theorem exists_concat {c : Char} {front rest : List Char} (hfront : front.getLast? ≠ some c)
    (hs : s ++ [c] = front ++ rest) : ∃ rest', rest = rest' ++ [c] ∧ s = front ++ rest' := by
  rcases List.eq_nil_or_concat' rest with rfl | ⟨rest, d, rfl⟩
  · rw [List.append_nil] at hs
    exact absurd (hs ▸ List.getLast?_concat) hfront
  · rw [← List.append_assoc] at hs
    obtain ⟨rfl, hd⟩ := List.append_inj' hs rfl
    obtain ⟨rfl, -⟩ := List.cons.inj hd
    exact ⟨rest, rfl, rfl⟩

theorem content_of_concat {c : Char} (hc : isBlank c = true) (h : Content named (s ++ [c])) :
    Content named s := by
  have hne : some '>' ≠ some c := by
    intro h
    obtain rfl := Option.some.inj h
    exact absurd hc (by decide)
  generalize hs : s ++ [c] = s' at h
  induction h generalizing s with
  | nil => exact absurd hs (by simp)
  | @text p rest hp hrest ih =>
    rcases List.eq_nil_or_concat' rest with rfl | ⟨rest, d, rfl⟩
    · rw [List.append_nil] at hs
      subst hs
      exact content_of_escaped ⟨fun r hr hm => hp.free r hr (List.mem_append_left _ hm),
        hp.entitiesOnly.of_concat hc⟩
    · rw [← List.append_assoc] at hs
      obtain ⟨rfl, hd⟩ := List.append_inj' hs rfl
      obtain ⟨rfl, -⟩ := List.cons.inj hd
      exact .text hp (ih rfl)
  | @closed name inside rest hn hi _ ih =>
    have hcut : '<' :: inside ++ '/' :: '>' :: rest = ('<' :: inside ++ ['/', '>']) ++ rest := by
      simp
    have hlast : ('<' :: inside ++ ['/', '>']).getLast? = some '>' := by
      rw [List.getLast?_append]
      rfl
    obtain ⟨rest', rfl, rfl⟩ := exists_concat (hlast ▸ hne) (hcut ▸ hs)
    have := Content.closed hn hi (ih rfl)
    simpa using this
  | @element name inside inner rest hn hi hinner _ _ ih =>
    have hcut : '<' :: inside ++ '>' :: inner ++ '<' :: '/' :: name ++ '>' :: rest =
        ('<' :: inside ++ '>' :: inner ++ '<' :: '/' :: name ++ ['>']) ++ rest := by simp
    have hlast : ('<' :: inside ++ '>' :: inner ++ '<' :: '/' :: name ++ ['>']).getLast? =
        some '>' := List.getLast?_concat
    obtain ⟨rest', rfl, rfl⟩ := exists_concat (hlast ▸ hne) (hcut ▸ hs)
    have := Content.element hn hi hinner (ih rfl)
    simpa using this

end

/-! ## Lines -/

theorem map_contentLines_eq {xs ys : List (List Char)} (h : List.Forall₂ Reflow xs ys) :
    ys.map contentLines = xs.map contentLines := by
  induction h with
  | nil => rfl
  | cons hxy _ ih => rw [List.map_cons, List.map_cons, ih, Text.contentLines_eq_of_reflow hxy]

theorem eq_of_forall₂_reflow {xs ys : List (List Char)} (h : List.Forall₂ Reflow xs ys)
    (hline : ∀ x ∈ xs, '\n' ∉ x) : ys = xs := by
  induction h with
  | nil => rfl
  | cons hxy _ ih =>
    rw [List.forall_mem_cons] at hline
    rw [hxy.eq_of_not_mem hline.1, ih hline.2]

section

variable {named : List Char → Prop} {cls s t : List Char}

theorem content_enclosed (h : Content named s) : Content named ('\n' :: s ++ ['\n']) := by
  have hnewline : Escaped textReserved ['\n'] := escaped_singleton (by decide) (by decide)
  exact (content_of_escaped hnewline).append (h.append (content_of_escaped hnewline))

theorem tags_enclosed (h : Content named s) : tags ('\n' :: s ++ ['\n']) = tags s := by
  have hnewline : '<' ∉ ['\n'] := by decide
  have hstart := tags_append_of_not_mem hnewline (s ++ ['\n'])
  rw [List.cons_append, ← List.singleton_append, hstart, h.tags_append]
  exact List.append_nil _

theorem classContents_enclosed (h : Content named s) :
    classContents cls ('\n' :: s ++ ['\n']) = classContents cls s := by
  have hnewline : '<' ∉ ['\n'] := by decide
  have hstart : classContents cls (['\n'] ++ (s ++ ['\n'])) = classContents cls (s ++ ['\n']) :=
    classContents_append_of_not_mem hnewline _
  rw [List.cons_append, ← List.singleton_append, hstart, h.classContents_append]
  exact List.append_nil _

/-- **Texts with the same lines are read alike.**  If one is content so is the other, with the
same lines in the elements of a class, and with the same tags if these have no line ends. -/
theorem Content.relaid (hcls : '\n' ∉ cls) (h : Content named s)
    (hlines : contentLines t = contentLines s) : Content named t ∧
      (classContents cls t).map contentLines = (classContents cls s).map contentLines ∧
      ((∀ x ∈ tags s, '\n' ∉ x) → tags t = tags s) := by
  have hs := (content_enclosed h).reflow hcls (Text.reflow_standing s)
  have ht := hs.content.reflow hcls (hlines ▸ (Text.reflow_standing t).symm)
  have hcontent : Content named t := content_of_concat (by decide)
    (content_of_cons (by decide) ht.content)
  have hcontents := (map_contentLines_eq ht.contents).trans (map_contentLines_eq hs.contents)
  rw [classContents_enclosed h, classContents_enclosed hcontent] at hcontents
  refine ⟨hcontent, hcontents, fun hline => ?_⟩
  rw [← tags_enclosed h] at hline
  have hstanding := eq_of_forall₂_reflow hs.tags hline
  have htags := eq_of_forall₂_reflow ht.tags (hstanding ▸ hline)
  rw [← tags_enclosed hcontent, htags, hstanding, tags_enclosed h]

end

end FreeBody.Markup
