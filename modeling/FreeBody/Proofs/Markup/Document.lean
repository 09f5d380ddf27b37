import FreeBody.Proofs.Markup.Root

/-!
# Documents

A document is one `svg` element, between blanks and perhaps behind a declaration.  Its tags are
those of XML: attributes in quotes of either kind, with any character in a value but the quote and
`<`, and blanks wherever they may stand.  Of names no more is asked than that they hold no mark of a
tag.

Taking off the root searches for characters and knows nothing of quotes.  It finds the content of
the root unless a value holds a `>` or the end tag a blank (`Document.IsPlain`), and in no other
case but one by accident: `stripRoot_eq_iff`.
-/

namespace FreeBody.Markup.Xml

open Text (Blank Spaces isBlank isSpace trim)

/-! ## Grammar -/

/-- The characters that have a part in tags. -/
def marks : List Char := ['<', '>', '/', '=', '"', '\'', '&']

/-- What a name is at least. -/
structure IsName (s : List Char) : Prop where
  ne_nil : s ≠ []
  solid : ∀ c ∈ s, isSpace c = false
  unmarked : ∀ c ∈ s, c ∉ marks

/-- Attributes, each behind blanks. -/
inductive Attributes : List Char → Prop
  | nil : Attributes []
  | cons {gap name before after value s : List Char} {quote : Char} :
    Spaces gap → gap ≠ [] → IsName name → Spaces before → Spaces after →
      quote ∈ ['"', '\''] → quote ∉ value → '<' ∉ value → Attributes s →
      Attributes (gap ++ name ++ before ++ '=' :: after ++ quote :: value ++ quote :: s)

/-- The ends of comments, of character data and of instructions. -/
def asides : List (List Char × List Char) := [
  ("<!--".toList, "-->".toList), ("<![CDATA[".toList, "]]>".toList), ("<?".toList, "?>".toList)]

/-- Whether `s` is a comment, character data or an instruction. -/
def IsAside (s : List Char) : Prop :=
  ∃ ends ∈ asides, ∃ body, ¬ ends.2 <:+: body ∧ s = ends.1 ++ (body ++ ends.2)

/-- What an element may hold: text, asides and elements, side by side. -/
inductive Content : List Char → Prop
  | nil : Content []
  | text {t s : List Char} : '<' ∉ t → Content s → Content (t ++ s)
  | aside {t s : List Char} : IsAside t → Content s → Content (t ++ s)
  | closed {name attributes gap s : List Char} :
    IsName name → Attributes attributes → Spaces gap → Content s →
      Content ('<' :: (name ++ (attributes ++ gap)) ++ ['/', '>'] ++ s)
  | element {name attributes gap inner gap' s : List Char} :
    IsName name → Attributes attributes → Spaces gap → Content inner → Spaces gap' → Content s →
      Content ('<' :: (name ++ (attributes ++ gap)) ++ '>' :: inner ++
        '<' :: '/' :: (name ++ gap') ++ ['>'] ++ s)

/-- What follows the attributes of the root: it is closed at once, or has content and an end tag,
which may have blanks behind its name. -/
inductive Ending
  | closed
  | element (inner gap : List Char)

/-- The content of the root. -/
def Ending.inner : Ending → List Char
  | closed => []
  | element inner _ => inner

/-- Whether an end tag has no blanks in it. -/
def Ending.IsTight : Ending → Prop
  | closed => True
  | element _ gap => gap = []

/-- The ending as text. -/
def Ending.text : Ending → List Char
  | closed => ['/', '>']
  | element inner gap => '>' :: inner ++ "</svg".toList ++ gap ++ ['>']

/-- A document by its parts. -/
structure Document where
  lead : List Char
  declaration : Option (List Char × List Char)
  attributes : List Char
  gap : List Char
  ending : Ending
  trail : List Char
  blank_lead : Blank lead
  declared : ∀ part ∈ declaration, ¬ ['?', '>'] <:+: part.1 ∧ Blank part.2
  wellFormed : Attributes attributes
  spaces_gap : Spaces gap
  content : Content ending.inner
  spaces_ending : ∀ inner gap, ending = .element inner gap → Spaces gap
  blank_trail : Blank trail

/-- A declaration with the blanks behind it. -/
def declarationText : Option (List Char × List Char) → List Char
  | none => []
  | some (body, gap) => "<?xml".toList ++ (body ++ ('?' :: '>' :: gap))

/-- The root element as text. -/
def Document.root (d : Document) : List Char :=
  "<svg".toList ++ (d.attributes ++ (d.gap ++ d.ending.text))

/-- The document as text. -/
def Document.text (d : Document) : List Char :=
  d.lead ++ (declarationText d.declaration ++ d.root ++ d.trail)

/-! ## Attributes -/

theorem not_mem_of_spaces {c : Char} {s : List Char} (hs : Spaces s) (hc : isSpace c = false) :
    c ∉ s := by
  intro hm
  rw [hs c hm] at hc
  cases hc

theorem getLast?_append_cons (s : List Char) (c : Char) (t : List Char) :
    (s ++ c :: t).getLast? = (c :: t).getLast? := by
  rw [List.getLast?_append_of_ne_nil _ (List.cons_ne_nil c t)]

/-- Attributes end with a quote. -/
theorem Attributes.getLast? {s : List Char} (h : Attributes s) :
    s = [] ∨ s.getLast? = some '"' ∨ s.getLast? = some '\'' := by
  induction h with
  | nil => exact Or.inl rfl
  | @cons gap name before after value s quote _ _ _ _ _ hquote _ _ _ ih =>
    right
    rw [getLast?_append_cons]
    rcases ih with rfl | ih | ih
    · simpa using hquote
    · rw [List.getLast?_cons, ih]
      exact Or.inl rfl
    · rw [List.getLast?_cons, ih]
      exact Or.inr rfl

/-- The root's opening tag does not end with a slash. -/
theorem getLast?_opening_ne {attributes gap : List Char} (ha : Attributes attributes)
    (hg : Spaces gap) : ("<svg".toList ++ (attributes ++ gap)).getLast? ≠ some '/' := by
  rcases List.eq_nil_or_concat gap with rfl | ⟨gap, c, rfl⟩
  · rw [List.append_nil, List.getLast?_append]
    rcases ha.getLast? with rfl | hlast | hlast
    · decide
    · rw [hlast]
      decide
    · rw [hlast]
      decide
  · rw [List.concat_eq_append] at hg ⊢
    rw [← List.append_assoc, ← List.append_assoc, getLast?_append_cons]
    intro h
    obtain rfl : c = '/' := by simpa using h
    exact absurd (hg '/' (by simp)) (by decide)

/-! ## Content -/

theorem Content.append {s t : List Char} (hs : Content s) (ht : Content t) : Content (s ++ t) := by
  induction hs with
  | nil => exact ht
  | text h _ ih =>
    rw [List.append_assoc]
    exact .text h ih
  | aside h _ ih =>
    rw [List.append_assoc]
    exact .aside h ih
  | closed hn ha hg _ ih =>
    rw [List.append_assoc]
    exact .closed hn ha hg ih
  | element hn ha hg hi hg' _ _ ih =>
    rw [List.append_assoc]
    exact .element hn ha hg hi hg' ih

/-- What begins and ends with a bracket has no blanks at its ends. -/
def Bracketed (m : List Char) : Prop := ∃ inside, m = '<' :: inside ++ ['>']

theorem IsAside.bracketed {m : List Char} (h : IsAside m) : Bracketed m := by
  obtain ⟨ends, hends, body, -, rfl⟩ := h
  simp only [asides, List.mem_cons, List.not_mem_nil, or_false] at hends
  rcases hends with rfl | rfl | rfl
  · exact ⟨"!--".toList ++ (body ++ "--".toList), by simp⟩
  · exact ⟨"![CDATA[".toList ++ (body ++ "]]".toList), by simp⟩
  · exact ⟨"?".toList ++ (body ++ "?".toList), by simp⟩

/-- Blanks at the front of bracketed text with more behind it. -/
theorem Bracketed.blank_prefix {m s u x : List Char} (hm : Bracketed m) (hu : Blank u)
    (h : m ++ s = u ++ x) : u = [] := by
  obtain ⟨inside, rfl⟩ := hm
  cases u with
  | nil => rfl
  | cons c u =>
    obtain ⟨rfl, -⟩ := List.cons.inj h
    exact absurd (hu '<' (by simp)) (by decide)

theorem Bracketed.blank_suffix {m s v x : List Char} (hm : Bracketed m) (hv : Blank v)
    (h : m ++ s = x ++ v) : ∃ y, x = m ++ y ∧ s = y ++ v := by
  rcases List.append_eq_append_iff.1 h with ⟨y, rfl, rfl⟩ | ⟨y, hmx, rfl⟩
  · exact ⟨y, rfl, rfl⟩
  · -- the bracket at the end would be a blank
    obtain ⟨inside, rfl⟩ := hm
    rcases List.eq_nil_or_concat y with rfl | ⟨y, c, rfl⟩
    · exact ⟨[], by simpa using hmx.symm, rfl⟩
    · rw [List.concat_eq_append, ← List.append_assoc] at hmx
      obtain ⟨-, hc⟩ := List.append_inj' hmx rfl
      obtain rfl : '>' = c := by simpa using hc
      exact absurd (hv '>' (by simp)) (by decide)

theorem bracketed_closed (tag : List Char) : Bracketed ('<' :: tag ++ ['/', '>']) :=
  ⟨tag ++ ['/'], by simp⟩

theorem bracketed_element (tag inner close : List Char) :
    Bracketed ('<' :: tag ++ '>' :: inner ++ '<' :: '/' :: close ++ ['>']) :=
  ⟨tag ++ '>' :: inner ++ '<' :: '/' :: close, by simp⟩

theorem Bracketed.of_blank_append {m s u x : List Char} (hm : Bracketed m)
    (hc : Content (m ++ s)) (hu : Blank u) (h : m ++ s = u ++ x) : Content x := by
  rw [hm.blank_prefix hu h, List.nil_append] at h
  rwa [← h]

/-- Blanks in front of content are text, or part of one. -/
theorem Content.of_blank_append {s u x : List Char} (h : Content s) (hu : Blank u)
    (hs : s = u ++ x) : Content x := by
  induction h generalizing u with
  | nil =>
    obtain ⟨-, rfl⟩ := List.append_eq_nil_iff.1 hs.symm
    exact .nil
  | text ht hc ih =>
    rcases List.append_eq_append_iff.1 hs with ⟨y, rfl, hy⟩ | ⟨y, rfl, rfl⟩
    · exact ih (fun c hc => hu c (List.mem_append_right _ hc)) hy
    · exact .text (fun hm => ht (List.mem_append_right _ hm)) hc
  | aside ha hc _ => exact ha.bracketed.of_blank_append (.aside ha hc) hu hs
  | closed hn ha hg hc _ =>
    exact (bracketed_closed _).of_blank_append (.closed hn ha hg hc) hu hs
  | element hn ha hg hi hg' hc _ _ =>
    exact (bracketed_element _ _ _).of_blank_append (.element hn ha hg hi hg' hc) hu hs

/-- Blanks behind content are text, or part of one. -/
theorem Content.of_append_blank {s x v : List Char} (h : Content s) (hv : Blank v)
    (hs : s = x ++ v) : Content x := by
  induction h generalizing x with
  | nil =>
    obtain ⟨rfl, -⟩ := List.append_eq_nil_iff.1 hs.symm
    exact .nil
  | text ht _ ih =>
    rcases List.append_eq_append_iff.1 hs with ⟨y, rfl, hy⟩ | ⟨y, rfl, rfl⟩
    · exact .text ht (ih hy)
    · rw [← List.append_nil x]
      exact .text (fun hm => ht (List.mem_append_left _ hm)) .nil
  | aside ha _ ih =>
    obtain ⟨y, rfl, hy⟩ := ha.bracketed.blank_suffix hv hs
    exact .aside ha (ih hy)
  | closed hn ha hg _ ih =>
    obtain ⟨y, rfl, hy⟩ := (bracketed_closed _).blank_suffix hv hs
    exact .closed hn ha hg (ih hy)
  | element hn ha hg hi hg' _ _ ih =>
    obtain ⟨y, rfl, hy⟩ := (bracketed_element _ _ _).blank_suffix hv hs
    exact .element hn ha hg hi hg' (ih hy)

/-- Content stays content when it is trimmed. -/
theorem Content.trim {s : List Char} (h : Content s) : Content (trim s) := by
  obtain ⟨u, v, hu, hv, hs⟩ := Text.exists_trim s
  exact (h.of_blank_append hu hs).of_append_blank hv rfl

/-! ## Declarations -/

theorem afterFirst?_cons_of_ne {c : Char} {s : List Char} (h : ¬ ['?', '>'] <+: c :: s) :
    afterFirst? ['?', '>'] (c :: s) = afterFirst? ['?', '>'] s := by
  have hdrop : Text.dropPrefix? ['?', '>'] (c :: s) = none := by
    rw [Option.eq_none_iff_forall_ne_some]
    intro rest hrest
    exact h ⟨rest, (Text.dropPrefix?_eq_some_iff.1 hrest).symm⟩
  rw [afterFirst?, hdrop]

theorem afterFirst?_append {body : List Char} (h : ¬ ['?', '>'] <:+: body) (rest : List Char) :
    afterFirst? ['?', '>'] (body ++ '?' :: '>' :: rest) = some rest := by
  induction body with
  | nil => rfl
  | cons c body ih =>
    have hstart : ¬ ['?', '>'] <+: c :: (body ++ '?' :: '>' :: rest) := by
      intro hstart
      obtain ⟨rfl, hnext⟩ := List.cons_prefix_cons.1 hstart
      cases body with
      | nil => simp at hnext
      | cons d body =>
        obtain ⟨rfl, -⟩ := List.cons_prefix_cons.1 hnext
        exact h ⟨[], body, rfl⟩
    rw [List.cons_append, afterFirst?_cons_of_ne hstart]
    exact ih fun hm => h (hm.trans (List.suffix_cons c body).isInfix)

theorem dropDeclaration_append {declaration : Option (List Char × List Char)}
    (h : ∀ part ∈ declaration, ¬ ['?', '>'] <:+: part.1 ∧ Blank part.2) (s : List Char) :
    dropDeclaration (declarationText declaration ++ ("<svg".toList ++ s)) = "<svg".toList ++ s := by
  cases declaration with
  | none => exact if_neg (by simp [declarationText])
  | some part =>
    obtain ⟨hbody, hgap⟩ := h part rfl
    obtain ⟨body, gap⟩ := part
    have hinfix : ¬ ['?', '>'] <:+: "<?xml".toList ++ body := by
      simp [List.infix_cons_iff, hbody]
    have hafter := afterFirst?_append hinfix (gap ++ ("<svg".toList ++ s))
    have htext : declarationText (some (body, gap)) ++ ("<svg".toList ++ s) =
        "<?xml".toList ++ body ++ '?' :: '>' :: (gap ++ ("<svg".toList ++ s)) := by
      simp [declarationText]
    have hmark : "?>".toList = ['?', '>'] := by decide
    rw [htext, dropDeclaration, if_pos (by simp), hmark, hafter]
    exact Text.dropWhile_append_of_stops hgap (Text.stops_cons_iff.2 (by decide))

theorem Ending.exists_text (e : Ending) : ∃ t, e.text = t ++ ['>'] := by
  cases e with
  | closed => exact ⟨['/'], rfl⟩
  | element inner gap => exact ⟨'>' :: inner ++ "</svg".toList ++ gap, rfl⟩

/-- Between the blanks around it, a document is its declaration and its root. -/
theorem Document.trim_text (d : Document) :
    Text.trim d.text = declarationText d.declaration ++ d.root := by
  have hbracketed : Bracketed (declarationText d.declaration ++ d.root) := by
    obtain ⟨t, ht⟩ := d.ending.exists_text
    rw [Document.root, ht]
    cases d.declaration with
    | none => exact ⟨"svg".toList ++ (d.attributes ++ (d.gap ++ t)), by simp [declarationText]⟩
    | some part =>
      exact ⟨"?xml".toList ++ (part.1 ++ '?' :: '>' :: part.2) ++ "<svg".toList ++
        (d.attributes ++ (d.gap ++ t)), by simp [declarationText]⟩
  obtain ⟨inside, hinside⟩ := hbracketed
  rw [Document.text]
  refine Text.trim_surround d.blank_lead d.blank_trail ?_
  rw [hinside, trim_bracketed]

/-! ## The root's tag -/

/-- The search stops at the first `>` behind the beginning of the root. -/
theorem rootContent_of_root {markup before rest : List Char}
    (h : dropDeclaration (Text.trim markup) = "<svg".toList ++ before ++ '>' :: rest)
    (hbefore : '>' ∉ before) :
    rootContent markup = if ("<svg".toList ++ before).getLast? = some '/' then []
      else Text.trim (dropEnding "</svg>".toList rest) := by
  have hopen : ∀ c ∈ "<svg".toList ++ before, (c != '>') = true := by
    intro c hc
    rw [bne_iff_ne]
    rintro rfl
    rcases List.mem_append.1 hc with hc | hc
    · revert hc
      decide
    · exact hbefore hc
  have hstop : Text.Stops (· != '>') ('>' :: rest) := Text.stops_cons_iff.2 (by simp)
  rw [rootContent, h, if_pos (by simp)]
  simp only [Text.dropWhile_append_of_stops hopen hstop,
    Text.takeWhile_append_of_stops hopen hstop]

theorem count_trim {c : Char} (hc : isBlank c = false) (s : List Char) :
    (Text.trim s).count c = s.count c := by
  obtain ⟨u, v, hu, hv, hs⟩ := Text.exists_trim s
  have hcount : ∀ w : List Char, Blank w → w.count c = 0 := by
    intro w hw
    rw [List.count_eq_zero]
    intro hm
    rw [hw c hm] at hc
    cases hc
  conv => rhs; rw [hs]
  rw [List.count_append, List.count_append, hcount u hu, hcount v hv]
  omega

theorem dropEnding_of_not {ending s : List Char} (h : ¬ ending <:+ s) : dropEnding ending s = s :=
  if_neg (by rwa [List.isSuffixOf_iff_suffix])

namespace Document

variable (d : Document)

theorem rootContent_text {before rest : List Char}
    (h : d.attributes ++ (d.gap ++ d.ending.text) = before ++ '>' :: rest)
    (hbefore : '>' ∉ before) :
    rootContent d.text = if ("<svg".toList ++ before).getLast? = some '/' then []
      else Text.trim (dropEnding "</svg>".toList rest) := by
  refine rootContent_of_root ?_ hbefore
  rw [d.trim_text, root, dropDeclaration_append d.declared, h, List.append_assoc]

theorem not_mem_gap : '>' ∉ d.gap := not_mem_of_spaces d.spaces_gap (by decide)

theorem rootContent_closed (h : '>' ∉ d.attributes) (he : d.ending = .closed) :
    rootContent d.text = [] := by
  have hcut : d.attributes ++ (d.gap ++ d.ending.text) =
      d.attributes ++ (d.gap ++ ['/']) ++ '>' :: [] := by
    rw [he, Ending.text]
    simp
  have hbefore : '>' ∉ d.attributes ++ (d.gap ++ ['/']) := by
    simpa using ⟨h, d.not_mem_gap⟩
  rw [d.rootContent_text hcut hbefore, if_pos]
  rw [← List.append_assoc, ← List.append_assoc, getLast?_append_cons]
  rfl

theorem rootContent_element (h : '>' ∉ d.attributes) {inner gap : List Char}
    (he : d.ending = .element inner gap) :
    rootContent d.text =
      Text.trim (dropEnding "</svg>".toList (inner ++ "</svg".toList ++ gap ++ ['>'])) := by
  have hcut : d.attributes ++ (d.gap ++ d.ending.text) =
      d.attributes ++ d.gap ++ '>' :: (inner ++ "</svg".toList ++ gap ++ ['>']) := by
    rw [he, Ending.text]
    simp
  have hbefore : '>' ∉ d.attributes ++ d.gap := by
    simpa using ⟨h, d.not_mem_gap⟩
  rw [d.rootContent_text hcut hbefore, if_neg (getLast?_opening_ne d.wellFormed d.spaces_gap)]

end Document

/-! ## Content that is missed -/

theorem not_suffix {c : Char} (hc : c ≠ 'g') (s : List Char) :
    ¬ "</svg>".toList <:+ s ++ [c, '>'] := by
  rintro ⟨x, hx⟩
  have hx' : x ++ "</sv".toList ++ ['g', '>'] = s ++ [c, '>'] := by
    rw [← hx]
    simp
  obtain ⟨-, hend⟩ := List.append_inj' hx' rfl
  exact hc (List.cons.inj hend).1.symm

/-- A blank in the end tag hides it. -/
theorem dropEnding_gap {gap : List Char} (hg : Spaces gap) (hne : gap ≠ []) (s : List Char) :
    dropEnding "</svg>".toList (s ++ gap ++ ['>']) = s ++ gap ++ ['>'] := by
  refine dropEnding_of_not ?_
  obtain ⟨gap, c, rfl⟩ := List.eq_nil_or_concat gap |>.resolve_left hne
  rw [List.concat_eq_append, ← List.append_assoc, List.append_assoc _ [c]]
  refine not_suffix ?_ _
  rintro rfl
  exact absurd (hg 'g' (by simp)) (by decide)

/-- Behind a `>` that does not end the tag, more is taken for content than the content. -/
theorem Ending.count_lt (e : Ending) (hspaces : ∀ inner gap, e = .element inner gap → Spaces gap)
    (s : List Char) :
    e.inner.count '>' < (dropEnding "</svg>".toList (s ++ e.text)).count '>' := by
  cases e with
  | closed =>
    rw [Ending.text, dropEnding_of_not (not_suffix (by decide) s), List.count_append]
    exact Nat.lt_add_left _ (by decide)
  | element inner gap =>
    rw [Ending.text, Ending.inner]
    by_cases hgap : gap = []
    · subst hgap
      have htext : s ++ ('>' :: inner ++ "</svg".toList ++ [] ++ ['>']) =
          s ++ '>' :: inner ++ "</svg>".toList := by simp
      rw [htext, dropEnding_append, List.count_append, List.count_cons_self]
      omega
    · rw [← List.append_assoc, ← List.append_assoc,
        dropEnding_gap (hspaces inner gap rfl) hgap, List.count_append, List.count_append,
        List.count_append, List.count_append, List.count_cons_self]
      omega

/-! ## Main result -/

/-- Whether the first `>` in the attributes is behind a slash. -/
def CutAtSlash (attributes : List Char) : Prop :=
  ∃ before after, attributes = before ++ '/' :: '>' :: after ∧ '>' ∉ before

/-- Whether the search hits what it is meant for: no value holds a `>` and the end tag no blank.
If a value does, the root passes for closed when a slash stands in front, and this may be true. -/
def Document.IsPlain (d : Document) : Prop :=
  '>' ∉ d.attributes ∧ d.ending.IsTight ∨ CutAtSlash d.attributes ∧ Blank d.ending.inner

theorem mem_of_cutAtSlash {attributes : List Char} (h : CutAtSlash attributes) :
    '>' ∈ attributes := by
  obtain ⟨before, after, rfl, -⟩ := h
  simp

theorem takeWhile_greater {before : List Char} (h : '>' ∉ before) (after : List Char) :
    (before ++ '>' :: after).takeWhile (· != '>') = before := by
  refine Text.takeWhile_append_of_stops (fun c hc => ?_) (Text.stops_cons_iff.2 (by decide))
  rw [bne_iff_ne]
  rintro rfl
  exact h hc

theorem cutAtSlash_iff {before after : List Char} (h : '>' ∉ before) :
    CutAtSlash (before ++ '>' :: after) ↔ ("<svg".toList ++ before).getLast? = some '/' := by
  constructor
  · rintro ⟨b, a, heq, hb⟩
    have hslash : '>' ∉ b ++ ['/'] := by simpa using hb
    have hbefore : before = b ++ ['/'] := by
      rw [← takeWhile_greater h after, heq, ← takeWhile_greater hslash a, List.append_assoc]
      rfl
    rw [hbefore, ← List.append_assoc, getLast?_append_cons]
    rfl
  · intro hlast
    rcases List.eq_nil_or_concat before with rfl | ⟨b, c, rfl⟩
    · exact absurd hlast (by decide)
    · rw [List.concat_eq_append] at h hlast ⊢
      rw [← List.append_assoc, getLast?_append_cons] at hlast
      obtain rfl : c = '/' := by simpa using hlast
      exact ⟨b, after, by simp, fun hb => h (List.mem_append_left _ hb)⟩

theorem ne_trim_of_count_lt {s t : List Char} (h : t.count '>' < s.count '>') :
    Text.trim s ≠ Text.trim t := by
  intro heq
  have hcount := congrArg (List.count '>') heq
  rw [count_trim (by decide), count_trim (by decide)] at hcount
  omega

namespace Document

variable (d : Document)

/-- A `>` in the attributes is taken for the end of the tag. -/
theorem rootContent_eq_iff_of_mem (h : '>' ∈ d.attributes) :
    rootContent d.text = Text.trim d.ending.inner ↔
      CutAtSlash d.attributes ∧ Blank d.ending.inner := by
  obtain ⟨before, after, hcut, hbefore⟩ := List.eq_append_cons_of_mem h
  have htext : d.attributes ++ (d.gap ++ d.ending.text) =
      before ++ '>' :: (after ++ d.gap ++ d.ending.text) := by
    rw [hcut]
    simp
  rw [d.rootContent_text htext hbefore, hcut, cutAtSlash_iff hbefore]
  by_cases hlast : ("<svg".toList ++ before).getLast? = some '/'
  · rw [if_pos hlast, eq_comm, Text.trim_eq_nil_iff]
    exact ⟨fun hinner => ⟨hlast, hinner⟩, And.right⟩
  · rw [if_neg hlast]
    exact iff_of_false (ne_trim_of_count_lt (d.ending.count_lt d.spaces_ending _))
      fun hplain => hlast hplain.1

/-- Without a `>` in the attributes, only blanks in the end tag are in the way. -/
theorem rootContent_eq_iff_of_not_mem (h : '>' ∉ d.attributes) :
    rootContent d.text = Text.trim d.ending.inner ↔ d.ending.IsTight := by
  cases he : d.ending with
  | closed =>
    rw [d.rootContent_closed h he]
    exact iff_of_true rfl trivial
  | element inner gap =>
    rw [d.rootContent_element h he, Ending.inner, Ending.IsTight]
    by_cases hgap : gap = []
    · subst hgap
      have htext : inner ++ "</svg".toList ++ [] ++ ['>'] = inner ++ "</svg>".toList := by simp
      rw [htext, dropEnding_append]
      exact iff_of_true rfl rfl
    · rw [dropEnding_gap (d.spaces_ending inner gap he) hgap]
      refine iff_of_false (ne_trim_of_count_lt ?_) hgap
      rw [List.count_append, List.count_append, List.count_append, List.count_singleton_self]
      omega

/-- The content of the root is what is found exactly in plain documents. -/
theorem rootContent_eq_iff :
    rootContent d.text = Text.trim d.ending.inner ↔ d.IsPlain := by
  by_cases h : '>' ∈ d.attributes
  · rw [d.rootContent_eq_iff_of_mem h, IsPlain]
    exact ⟨Or.inr, fun hplain => hplain.resolve_left fun hnot => hnot.1 h⟩
  · rw [d.rootContent_eq_iff_of_not_mem h, IsPlain]
    constructor
    · exact fun htight => Or.inl ⟨h, htight⟩
    · rintro (⟨-, htight⟩ | ⟨hslash, -⟩)
      · exact htight
      · exact absurd (mem_of_cutAtSlash hslash) h

end Document

/-- **Taking off a root.**  What is left of a document is the trimmed content of its root exactly
if the document is plain; it may then stand wherever content may.  Text that begins with neither a
declaration nor a root is trimmed. -/
theorem stripRoot_eq_iff (d : Document) (s : List Char) :
    (stripRoot (String.ofList d.text) = String.ofList (Text.trim d.ending.inner) ↔ d.IsPlain) ∧
      (d.IsPlain → ∀ before after, Content before → Content after →
        Content (before ++ (stripRoot (String.ofList d.text)).toList ++ after)) ∧
      (¬ "<?xml".toList <+: Text.trim s → ¬ "<svg".toList <+: Text.trim s →
        stripRoot (String.ofList s) = String.ofList (Text.trim s)) := by
  refine ⟨?_, fun hplain before after hbefore hafter => ?_, fun hxml hsvg => ?_⟩
  · rw [stripRoot, String.toList_ofList, String.ofList_inj, d.rootContent_eq_iff]
  · rw [toList_stripRoot, String.toList_ofList, d.rootContent_eq_iff.2 hplain]
    exact (hbefore.append d.content.trim).append hafter
  · rw [stripRoot, String.toList_ofList, rootContent_eq_trim hsvg hxml]

/-- A document with a declaration and an element of its own name in the root. -/
def nested : Document where
  lead := ['\n']
  declaration := some ([' ', 'v'], ['\n'])
  attributes := [' ', 'i', 'd', '=', '\'', 'r', '\'']
  gap := []
  ending := .element ['\n', '<', 's', 'v', 'g', '/', '>', '\n'] []
  trail := ['\n']
  blank_lead := by decide
  blank_trail := by decide
  declared := by
    intro part hpart
    obtain rfl := Option.mem_some_iff.1 hpart
    decide
  wellFormed := @Attributes.cons [' '] ['i', 'd'] [] [] ['r'] [] '\'' (by decide) (by decide)
    ⟨by decide, by decide, by decide⟩ (by decide) (by decide) (by decide) (by decide) (by decide)
    .nil
  spaces_gap := by decide
  content := @Content.text ['\n'] _ (by decide) (@Content.closed ['s', 'v', 'g'] [] [] _
    ⟨by decide, by decide, by decide⟩ .nil (by decide) (@Content.text ['\n'] _ (by decide) .nil))
  spaces_ending := by
    intro inner gap h
    cases h
    decide

theorem stripRoot_nested :
    nested.IsPlain ∧
      stripRoot (String.ofList nested.text) = String.ofList "<svg/>".toList ∧
      stripRoot (String.ofList " <g/> ".toList) = String.ofList "<g/>".toList := by
  have hplain : nested.IsPlain := Or.inl ⟨by decide, rfl⟩
  have hinner : Text.trim nested.ending.inner = "<svg/>".toList := by decide +kernel
  have hother : Text.trim " <g/> ".toList = "<g/>".toList := by decide +kernel
  obtain ⟨hroot, -, htrim⟩ := stripRoot_eq_iff nested " <g/> ".toList
  refine ⟨hplain, ?_, ?_⟩
  · rw [hroot.2 hplain, hinner]
  · rw [htrim (by decide +kernel) (by decide +kernel), hother]

/-- A `>` in a value is taken for the end of the tag, and a blank in the end tag hides it. -/
theorem stripRoot_cuts_value :
    stripRoot "<svg a='x>y'><g/></svg>" = "y'><g/>" ∧
      stripRoot "<svg><g/></svg >" = "<g/></svg >" := by
  constructor <;> decide +kernel

end FreeBody.Markup.Xml
