import FreeBody.Proofs.Markup.Grammar
import FreeBody.Proofs.Text.Pieces

/-!
# What stands in markup

Three readings of markup as text, without a tree: the tags, from each `<` to the next `>`
(`tags`), the attributes in a tag (`attributes`), and the contents of the elements of a class,
each up to the end tag that closes it (`classContents`).

In front of other text, well-formed content is read as it is when it stands alone
(`Content.tags_append`, `Content.classContents_append`), and an element of a class is read as its
content (`classContents_element`).
-/

namespace FreeBody.Markup

/-! ## Readings -/

/-- The text of a tag behind its opening bracket. -/
def tagText (s : List Char) : List Char := s.takeWhile (· != '>')

/-- What the tags of `s` hold between their brackets, in order. -/
def tags : List Char → List (List Char)
  | [] => []
  | c :: rest => if c = '<' then tagText rest :: tags rest else tags rest

/-- The name in front of the quotes of a value, behind a blank and before an equals sign. -/
def attributeName (lead : List Char) : List Char :=
  (lead.reverse.takeWhile (· != ' ')).reverse.dropLast

/-- The names and values in a tag that was cut at its quotes. -/
def pairs : List (List Char) → List (List Char × List Char)
  | lead :: value :: rest => (attributeName lead, value) :: pairs rest
  | _ => []

/-- The attributes of a tag, by what stands between its brackets. -/
def attributes (inside : List Char) : List (List Char × List Char) :=
  pairs (Text.pieces '"' inside)

/-- The attributes of all tags of a text. -/
def allAttributes (s : List Char) : List (List Char × List Char) := (tags s).flatMap attributes

/-- The text up to the end tag that closes the element it stands in, `depth` levels up. -/
def elementText : Nat → List Char → List Char
  | _, [] => []
  | depth, c :: rest =>
    if c = '<' then
      if rest.head? = some '/' then
        if depth = 0 then [] else c :: elementText (depth - 1) rest
      else if (tagText rest).getLast? = some '/' then c :: elementText depth rest
      else c :: elementText (depth + 1) rest
    else c :: elementText depth rest

/-- Whether a tag has the class `cls`. -/
def HasClass (cls inside : List Char) : Prop := ("class".toList, cls) ∈ attributes inside

instance (cls : List Char) : DecidablePred (HasClass cls) := fun inside =>
  inferInstanceAs (Decidable (("class".toList, cls) ∈ attributes inside))

/-- The contents of the elements of class `cls`, in the order of their tags. -/
def classContents (cls : List Char) : List Char → List (List Char)
  | [] => []
  | c :: rest =>
    if c = '<' ∧ HasClass cls (tagText rest) then
      (if (tagText rest).getLast? = some '/' then []
        else elementText 0 ((rest.dropWhile (· != '>')).drop 1)) :: classContents cls rest
    else classContents cls rest

/-! ## Text and single tags -/

section

variable {x s t : List Char} {cls : List Char}

theorem tags_append_of_not_mem (h : '<' ∉ t) (s : List Char) : tags (t ++ s) = tags s := by
  induction t with
  | nil => rfl
  | cons c t ih =>
    rw [List.mem_cons, not_or] at h
    rw [List.cons_append, tags, if_neg (Ne.symm h.1), ih h.2]

theorem classContents_append_of_not_mem (h : '<' ∉ t) (s : List Char) :
    classContents cls (t ++ s) = classContents cls s := by
  induction t with
  | nil => rfl
  | cons c t ih =>
    rw [List.mem_cons, not_or] at h
    rw [List.cons_append, classContents, if_neg (fun hc => h.1 hc.1.symm), ih h.2]

theorem elementText_append_of_not_mem (h : '<' ∉ t) (depth : Nat) (s : List Char) :
    elementText depth (t ++ s) = t ++ elementText depth s := by
  induction t with
  | nil => rfl
  | cons c t ih =>
    rw [List.mem_cons, not_or] at h
    rw [List.cons_append, elementText, if_neg (Ne.symm h.1), ih h.2, List.cons_append]

theorem tagText_append (hx : '>' ∉ x) (s : List Char) : tagText (x ++ '>' :: s) = x := by
  refine Text.takeWhile_append_of_stops (fun c hc => ?_) (Text.stops_cons_iff.2 (by simp))
  rw [bne_iff_ne]
  rintro rfl
  exact hx hc

theorem drop_dropWhile_tag (hx : '>' ∉ x) (s : List Char) :
    ((x ++ '>' :: s).dropWhile (· != '>')).drop 1 = s := by
  rw [Text.dropWhile_append_of_stops (fun c hc => ?_) (Text.stops_cons_iff.2 (by simp))]
  · rfl
  · rw [bne_iff_ne]
    rintro rfl
    exact hx hc

/-- What stands in a tag has no bracket. -/
structure Unbracketed (x : List Char) : Prop where
  less : '<' ∉ x
  greater : '>' ∉ x

theorem tags_tag (hx : Unbracketed x) (s : List Char) :
    tags ('<' :: x ++ '>' :: s) = x :: tags s := by
  have hrest := tags_append_of_not_mem hx.less ('>' :: s)
  rw [List.cons_append, tags, if_pos rfl, tagText_append hx.greater, hrest, tags,
    if_neg (by decide)]

theorem classContents_tag (hx : Unbracketed x) (s : List Char) :
    classContents cls ('<' :: x ++ '>' :: s) =
      (if HasClass cls x then [if x.getLast? = some '/' then [] else elementText 0 s] else []) ++
        classContents cls s := by
  have hrest : classContents cls (x ++ '>' :: s) = classContents cls s := by
    rw [classContents_append_of_not_mem hx.less, classContents,
      if_neg (fun h => absurd h.1 (by decide))]
  rw [List.cons_append, classContents, tagText_append hx.greater, drop_dropWhile_tag hx.greater,
    hrest]
  by_cases hcls : HasClass cls x
  · rw [if_pos ⟨rfl, hcls⟩, if_pos hcls]
    rfl
  · rw [if_neg (fun h => hcls h.2), if_neg hcls]
    rfl

theorem elementText_tag (hx : Unbracketed x) (hstart : x.head? ≠ some '/') (hne : x ≠ [])
    (depth : Nat) (s : List Char) : elementText depth ('<' :: x ++ '>' :: s) =
      '<' :: x ++ '>' :: elementText (if x.getLast? = some '/' then depth else depth + 1) s := by
  have hhead : (x ++ '>' :: s).head? ≠ some '/' := by
    obtain ⟨c, x, rfl⟩ := List.exists_cons_of_ne_nil hne
    exact hstart
  rw [List.cons_append, elementText, if_pos rfl, if_neg hhead, tagText_append hx.greater]
  have hrest : ∀ depth, elementText depth (x ++ '>' :: s) = x ++ '>' :: elementText depth s := by
    intro depth
    rw [elementText_append_of_not_mem hx.less, elementText, if_neg (by decide)]
  split
  · rw [hrest, List.cons_append]
  · rw [hrest, List.cons_append]

theorem elementText_end (s : List Char) : elementText 0 ('<' :: '/' :: s) = [] := by
  rw [elementText, if_pos rfl, if_pos List.head?_cons, if_pos rfl]

theorem elementText_endTag (hx : Unbracketed x) (depth : Nat) (s : List Char) :
    elementText (depth + 1) ('<' :: ('/' :: x) ++ '>' :: s) =
      '<' :: ('/' :: x) ++ '>' :: elementText depth s := by
  have hslash : '<' ∉ '/' :: x := by simpa using hx.less
  rw [List.cons_append, elementText, if_pos rfl, if_pos (by rfl), if_neg (Nat.succ_ne_zero depth),
    elementText_append_of_not_mem hslash, elementText, if_neg (by decide)]
  rfl

/-- Without a tag of the class there is no content of it. -/
theorem classContents_eq_nil (h : ∀ x ∈ tags s, ¬ HasClass cls x) : classContents cls s = [] := by
  induction s with
  | nil => rfl
  | cons c s ih =>
    rw [tags] at h
    by_cases hc : c = '<'
    · rw [if_pos hc, List.forall_mem_cons] at h
      rw [classContents, if_neg (fun hcls => h.1 hcls.2), ih h.2]
    · rw [if_neg hc] at h
      rw [classContents, if_neg (fun hcls => hc hcls.1), ih h]

end

/-! ## Attributes -/

theorem nameChar_of_mem {name : List Char} (h : isName name) {c : Char} (hc : c ∈ name) :
    (isAsciiLetter c || isAsciiDigit c || c == '-') = true := by
  cases name with
  | nil => cases hc
  | cons d rest =>
    simp only [isName, Bool.and_eq_true, List.all_eq_true] at h
    rcases List.mem_cons.1 hc with rfl | hc
    · rw [h.1]
      rfl
    · exact h.2 c hc

/-- Characters that markup gives a meaning do not stand in a name. -/
theorem special_not_mem_of_isName {name : List Char} (h : isName name) :
    ∀ c ∈ ['<', '>', '"', '/', ' ', '\n', '='], c ∉ name := by
  have hnone : ∀ c ∈ ['<', '>', '"', '/', ' ', '\n', '='],
      (isAsciiLetter c || isAsciiDigit c || c == '-') = false := by decide
  intro c hc hmem
  have := nameChar_of_mem h hmem
  rw [hnone c hc] at this
  cases this

/-- The name in front of a value is read, whatever stands before it. -/
theorem attributeName_append {name : List Char} (h : isName name) (lead : List Char) :
    attributeName (lead ++ ' ' :: name ++ ['=']) = name := by
  have hblank : ' ' ∉ name := special_not_mem_of_isName h ' ' (by simp)
  have hreverse : (lead ++ ' ' :: name ++ ['=']).reverse =
      ('=' :: name.reverse) ++ ' ' :: lead.reverse := by simp
  have htake : (lead ++ ' ' :: name ++ ['=']).reverse.takeWhile (· != ' ') =
      '=' :: name.reverse := by
    rw [hreverse]
    refine Text.takeWhile_append_of_stops (fun c hc => ?_) (Text.stops_cons_iff.2 (by simp))
    rw [bne_iff_ne]
    rintro rfl
    rcases List.mem_cons.1 hc with hc | hc
    · cases hc
    · exact hblank (List.mem_reverse.1 hc)
  rw [attributeName, htake]
  simp

/-- The next attribute of a tag, behind a text without quotes. -/
theorem pairs_pieces {lead name value : List Char} (hlead : '"' ∉ lead) (hname : isName name)
    (hvalue : '"' ∉ value) (rest : List Char) :
    pairs (Text.pieces '"' (lead ++ (' ' :: name ++ '=' :: '"' :: value ++ '"' :: rest))) =
      (name, value) :: pairs (Text.pieces '"' rest) := by
  have hfront : '"' ∉ lead ++ ' ' :: name ++ ['='] := by
    have hquote : '"' ∉ name := special_not_mem_of_isName hname '"' (by simp)
    simpa using ⟨hlead, hquote⟩
  have hcut : lead ++ (' ' :: name ++ '=' :: '"' :: value ++ '"' :: rest) =
      (lead ++ ' ' :: name ++ ['=']) ++ '"' :: (value ++ '"' :: rest) := by simp
  rw [hcut, Text.pieces_append_cons hfront, Text.pieces_append_cons hvalue, pairs,
    attributeName_append hname]

theorem attributes_of_not_mem {x : List Char} (h : '"' ∉ x) : attributes x = [] := by
  rw [attributes, Text.pieces_of_not_mem h]
  rfl

/-! ## Tags that hold a name and attributes -/

theorem Attributes.unbracketed {names : List (List Char)} {s : List Char}
    (h : Attributes names s) : Unbracketed s := by
  induction h with
  | nil => exact ⟨List.not_mem_nil, List.not_mem_nil⟩
  | @cons name value s names hn hv _ ih =>
    have hnless := special_not_mem_of_isName hn '<' (by simp)
    have hngreater := special_not_mem_of_isName hn '>' (by simp)
    have hvless := hv.free '<' (by decide)
    have hvgreater := hv.free '>' (by decide)
    exact ⟨by simpa using ⟨hnless, hvless, ih.less⟩,
      by simpa using ⟨hngreater, hvgreater, ih.greater⟩⟩

theorem Inside.unbracketed {name inside : List Char} (h : Inside name inside) :
    Unbracketed inside := by
  obtain ⟨hn, names, rest, ha, -, rfl⟩ := h
  have hless := special_not_mem_of_isName hn '<' (by simp)
  have hgreater := special_not_mem_of_isName hn '>' (by simp)
  exact ⟨by simpa using ⟨hless, ha.unbracketed.less⟩,
    by simpa using ⟨hgreater, ha.unbracketed.greater⟩⟩

theorem Inside.ne_nil {name inside : List Char} (h : Inside name inside) : inside ≠ [] := by
  obtain ⟨hn, names, rest, -, -, rfl⟩ := h
  cases name with
  | nil => cases hn
  | cons c name => exact List.cons_ne_nil _ _

theorem Inside.head?_ne {name inside : List Char} (h : Inside name inside) :
    inside.head? ≠ some '/' := by
  obtain ⟨hn, names, rest, -, -, rfl⟩ := h
  have hslash := special_not_mem_of_isName hn '/' (by simp)
  cases name with
  | nil => cases hn
  | cons c name =>
    intro hc
    exact hslash (Option.some.inj hc ▸ List.mem_cons_self)

/-- The last attribute ends in a quote. -/
theorem Attributes.getLast? {names : List (List Char)} {s : List Char} (h : Attributes names s) :
    s = [] ∨ s.getLast? = some '"' := by
  induction h with
  | nil => exact .inl rfl
  | @cons name value s names _ _ _ ih =>
    right
    have hcut : ' ' :: name ++ '=' :: '"' :: value ++ '"' :: s =
        (' ' :: name ++ '=' :: '"' :: value) ++ ('"' :: s) := rfl
    rw [hcut, List.getLast?_append]
    rcases ih with rfl | ih
    · rfl
    · rw [List.getLast?_cons, ih]
      rfl

theorem Inside.getLast?_ne {name inside : List Char} (h : Inside name inside) :
    inside.getLast? ≠ some '/' := by
  obtain ⟨hn, names, rest, ha, -, rfl⟩ := h
  rcases ha.getLast? with rfl | hlast
  · rw [List.append_nil]
    intro hc
    exact special_not_mem_of_isName hn '/' (by simp) (List.mem_of_getLast? hc)
  · rw [List.getLast?_append, hlast]
    exact fun hc => absurd (Option.some.inj hc) (by decide)

/-! ## Content -/

section

variable {named : List Char → Prop} {name inside inner s : List Char} {cls : List Char}

theorem closed_eq (inside s : List Char) :
    '<' :: inside ++ '/' :: '>' :: s = '<' :: (inside ++ ['/']) ++ '>' :: s := by simp

theorem element_eq (inside inner name s : List Char) :
    '<' :: inside ++ '>' :: inner ++ '<' :: '/' :: name ++ '>' :: s =
      '<' :: inside ++ '>' :: (inner ++ ('<' :: ('/' :: name) ++ '>' :: s)) := by simp

theorem Inside.unbracketed_closed (h : Inside name inside) : Unbracketed (inside ++ ['/']) :=
  ⟨by simpa using h.unbracketed.less, by simpa using h.unbracketed.greater⟩

theorem Inside.unbracketed_name (h : Inside name inside) : Unbracketed name :=
  ⟨special_not_mem_of_isName h.called '<' (by simp),
    special_not_mem_of_isName h.called '>' (by simp)⟩

theorem Inside.unbracketed_end (h : Inside name inside) : Unbracketed ('/' :: name) :=
  ⟨by simpa using h.unbracketed_name.less, by simpa using h.unbracketed_name.greater⟩

/-- An end tag has no class. -/
theorem Inside.not_hasClass_end (h : Inside name inside) (cls : List Char) :
    ¬ HasClass cls ('/' :: name) := by
  have hquote : '"' ∉ '/' :: name := by
    simpa using special_not_mem_of_isName h.called '"' (by simp)
  rw [HasClass, attributes_of_not_mem hquote]
  exact List.not_mem_nil

theorem Inside.head?_closed (h : Inside name inside) :
    (inside ++ ['/']).head? ≠ some '/' := by
  obtain ⟨c, x, hx⟩ := List.exists_cons_of_ne_nil h.ne_nil
  have hhead := h.head?_ne
  rw [hx] at hhead ⊢
  exact hhead

/-- The text of an element runs past whole content. -/
theorem Content.elementText_append (h : Content named s) (depth : Nat) (t : List Char) :
    elementText depth (s ++ t) = s ++ elementText depth t := by
  induction h generalizing depth t with
  | nil => rfl
  | text he _ ih =>
    rw [List.append_assoc, elementText_append_of_not_mem (he.free '<' (by decide)), ih,
      List.append_assoc]
  | @closed name inside s _ hi _ ih =>
    have hcut : '<' :: (inside ++ ['/']) ++ '>' :: s ++ t =
        '<' :: (inside ++ ['/']) ++ '>' :: (s ++ t) := by simp
    rw [closed_eq, hcut, elementText_tag hi.unbracketed_closed hi.head?_closed (by simp),
      List.getLast?_concat, if_pos rfl, ih]
    simp
  | @element name inside inner s _ hi _ _ ihinner ih =>
    have hcut : '<' :: inside ++ '>' :: (inner ++ ('<' :: ('/' :: name) ++ '>' :: s)) ++ t =
        '<' :: inside ++ '>' :: (inner ++ ('<' :: ('/' :: name) ++ '>' :: (s ++ t))) := by simp
    rw [element_eq, hcut, elementText_tag hi.unbracketed hi.head?_ne hi.ne_nil,
      if_neg hi.getLast?_ne, ihinner, elementText_endTag hi.unbracketed_name, ih]
    simp

/-- The text of an element ends at its end tag. -/
theorem Content.elementText_end (h : Content named inner) (s : List Char) :
    elementText 0 (inner ++ ('<' :: ('/' :: name) ++ '>' :: s)) = inner := by
  have hend : elementText 0 ('<' :: ('/' :: name) ++ '>' :: s) = [] := Markup.elementText_end _
  rw [h.elementText_append, hend, List.append_nil]

/-- The tags of an element. -/
theorem tags_element (hi : Inside name inside) (inner s : List Char) :
    tags ('<' :: inside ++ '>' :: (inner ++ ('<' :: ('/' :: name) ++ '>' :: s))) =
      inside :: tags (inner ++ ('<' :: ('/' :: name) ++ '>' :: s)) :=
  tags_tag hi.unbracketed _

theorem Content.tags_append (h : Content named s) (t : List Char) :
    tags (s ++ t) = tags s ++ tags t := by
  induction h generalizing t with
  | nil => rfl
  | text he _ ih =>
    have hless := he.free '<' (by decide)
    rw [List.append_assoc, tags_append_of_not_mem hless, tags_append_of_not_mem hless, ih]
  | @closed name inside s _ hi _ ih =>
    have hcut : '<' :: (inside ++ ['/']) ++ '>' :: s ++ t =
        '<' :: (inside ++ ['/']) ++ '>' :: (s ++ t) := by simp
    rw [closed_eq, hcut, tags_tag hi.unbracketed_closed, tags_tag hi.unbracketed_closed, ih]
    rfl
  | @element name inside inner s _ hi _ _ ihinner ih =>
    have hcut : '<' :: inside ++ '>' :: (inner ++ ('<' :: ('/' :: name) ++ '>' :: s)) ++ t =
        '<' :: inside ++ '>' :: (inner ++ ('<' :: ('/' :: name) ++ '>' :: (s ++ t))) := by simp
    rw [element_eq, hcut, tags_tag hi.unbracketed, tags_tag hi.unbracketed, ihinner, ihinner,
      tags_tag hi.unbracketed_end, tags_tag hi.unbracketed_end, ih]
    simp

/-- The contents of a class in an element, and behind its start tag. -/
theorem classContents_element (hi : Inside name inside) (hinner : Content named inner)
    (s : List Char) :
    classContents cls ('<' :: inside ++ '>' :: (inner ++ ('<' :: ('/' :: name) ++ '>' :: s))) =
      (if HasClass cls inside then [inner] else []) ++
        classContents cls (inner ++ ('<' :: ('/' :: name) ++ '>' :: s)) := by
  rw [classContents_tag hi.unbracketed, if_neg hi.getLast?_ne, hinner.elementText_end]

theorem classContents_closed (hi : Inside name inside) (s : List Char) :
    classContents cls ('<' :: (inside ++ ['/']) ++ '>' :: s) =
      (if HasClass cls (inside ++ ['/']) then [[]] else []) ++ classContents cls s := by
  rw [classContents_tag hi.unbracketed_closed, List.getLast?_concat, if_pos rfl]

theorem classContents_endTag (hi : Inside name inside) (s : List Char) :
    classContents cls ('<' :: ('/' :: name) ++ '>' :: s) = classContents cls s := by
  rw [classContents_tag hi.unbracketed_end, if_neg (hi.not_hasClass_end cls)]
  rfl

theorem Content.classContents_append (h : Content named s) (t : List Char) :
    classContents cls (s ++ t) = classContents cls s ++ classContents cls t := by
  induction h generalizing t with
  | nil => rfl
  | text he _ ih =>
    have hless := he.free '<' (by decide)
    rw [List.append_assoc, classContents_append_of_not_mem hless,
      classContents_append_of_not_mem hless, ih]
  | @closed name inside s _ hi _ ih =>
    have hcut : '<' :: (inside ++ ['/']) ++ '>' :: s ++ t =
        '<' :: (inside ++ ['/']) ++ '>' :: (s ++ t) := by simp
    rw [closed_eq, hcut, classContents_closed hi, classContents_closed hi, ih, List.append_assoc]
  | @element name inside inner s _ hi hinner _ ihinner ih =>
    have hcut : '<' :: inside ++ '>' :: (inner ++ ('<' :: ('/' :: name) ++ '>' :: s)) ++ t =
        '<' :: inside ++ '>' :: (inner ++ ('<' :: ('/' :: name) ++ '>' :: (s ++ t))) := by simp
    rw [element_eq, hcut, classContents_element hi hinner, classContents_element hi hinner,
      ihinner, ihinner, classContents_endTag hi, classContents_endTag hi, ih]
    simp

/-- The slash of a closed tag is no part of its attributes. -/
theorem attributes_closed (h : Inside name inside) :
    attributes (inside ++ ['/']) = attributes inside := by
  obtain ⟨hn, names, rest, ha, -, rfl⟩ := h
  have hquote : '"' ∉ name := special_not_mem_of_isName hn '"' (by simp)
  rw [List.append_assoc]
  clear hn
  induction ha generalizing name with
  | nil =>
    rw [List.nil_append, List.append_nil, attributes_of_not_mem hquote]
    exact attributes_of_not_mem (by simpa using hquote)
  | @cons key value s names hk hv _ ih =>
    have hvalue : '"' ∉ value := hv.free '"' (by decide)
    have hcut : ' ' :: key ++ '=' :: '"' :: value ++ '"' :: s ++ ['/'] =
        ' ' :: key ++ '=' :: '"' :: value ++ '"' :: (s ++ ['/']) := by simp
    rw [hcut, attributes, attributes, pairs_pieces hquote hk hvalue, pairs_pieces hquote hk hvalue]
    have hrest := ih (List.not_mem_nil : '"' ∉ [])
    rw [List.nil_append, List.nil_append] at hrest
    exact congrArg _ hrest

/-! ## Tags on one line -/

theorem Attributes.unbroken {names : List (List Char)} {s : List Char} (h : Attributes names s)
    {lead : List Char} (hlead : '"' ∉ lead)
    (hline : ∀ a ∈ pairs (Text.pieces '"' (lead ++ s)), '\n' ∉ a.2) : '\n' ∉ s := by
  induction h generalizing lead with
  | nil => exact List.not_mem_nil
  | @cons name value s names hn hv _ ih =>
    rw [pairs_pieces hlead hn (hv.free '"' (by decide)), List.forall_mem_cons] at hline
    have hname : '\n' ∉ name := special_not_mem_of_isName hn '\n' (by simp)
    have hrest := ih (List.not_mem_nil : '"' ∉ []) hline.2
    simpa using ⟨hname, hline.1, hrest⟩

theorem Inside.unbroken (h : Inside name inside)
    (hline : ∀ a ∈ Markup.attributes inside, '\n' ∉ a.2) :
    '\n' ∉ inside := by
  obtain ⟨hn, names, rest, ha, -, rfl⟩ := h
  rw [List.mem_append, not_or]
  exact ⟨special_not_mem_of_isName hn '\n' (by simp),
    ha.unbroken (special_not_mem_of_isName hn '"' (by simp)) hline⟩

/-- A tag stays on its line if the values in it do. -/
theorem Content.tags_unbroken (h : Content named s)
    (hline : ∀ a ∈ allAttributes s, '\n' ∉ a.2) : ∀ x ∈ tags s, '\n' ∉ x := by
  induction h with
  | nil => exact nofun
  | text he _ ih =>
    have hless := he.free '<' (by decide)
    rw [allAttributes, tags_append_of_not_mem hless] at hline
    rw [tags_append_of_not_mem hless]
    exact ih hline
  | @closed name inside s _ hi _ ih =>
    rw [closed_eq, allAttributes, tags_tag hi.unbracketed_closed, List.flatMap_cons,
      attributes_closed hi, List.forall_mem_append] at hline
    rw [closed_eq, tags_tag hi.unbracketed_closed, List.forall_mem_cons]
    have hinside := hi.unbroken hline.1
    exact ⟨by simpa using hinside, ih hline.2⟩
  | @element name inside inner s _ hi hinner _ ihinner ih =>
    have hname : '\n' ∉ '/' :: name := by
      simpa using special_not_mem_of_isName hi.called '\n' (by simp)
    rw [element_eq, allAttributes, tags_element hi, hinner.tags_append,
      tags_tag hi.unbracketed_end, List.flatMap_cons, List.flatMap_append, List.flatMap_cons,
      List.forall_mem_append, List.forall_mem_append, List.forall_mem_append] at hline
    rw [element_eq, tags_element hi, hinner.tags_append, tags_tag hi.unbracketed_end,
      List.forall_mem_cons, List.forall_mem_append, List.forall_mem_cons]
    exact ⟨hi.unbroken hline.1, ihinner hline.2.1, hname, ih hline.2.2.2⟩

end

end FreeBody.Markup
