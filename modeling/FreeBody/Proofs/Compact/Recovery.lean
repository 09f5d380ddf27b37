import FreeBody.Proofs.Compact.Reread

/-!
# Elements next to words that are none

A word that is no element costs no element beside it: an element that has separators, or nothing,
on its two sides is a token of its own, whatever stands before and behind it (`tokens_recover`).

In front of an element there may be the beginning of another one, with an open bracket and
separators behind it.  Where that one could run on into the element, the commas are against it:
behind a second bracket an element has fewer of them than every element has behind its first
(`Bracketed.not_across`).
-/

namespace FreeBody.Compact

open Text (Stops isSpace isBlank skipSpaces stops_isSpace_of_isBlank stops_of_forall trim trimStart
  trimEnd)

/-! ## Elements between others -/

/-- Nothing, or a text with a separator at its end. -/
def EndsSpaced (pre : List Char) : Prop := ∀ c ∈ pre.getLast?, isSpace c = true

/-- Nothing, or a text with a separator in front. -/
def StartsSpaced (post : List Char) : Prop := ∀ c ∈ post.head?, isSpace c = true

instance (pre : List Char) : Decidable (EndsSpaced pre) :=
  decidable_of_iff (pre.getLast?.all isSpace = true) (Option.all_eq_true _ _)

instance (post : List Char) : Decidable (StartsSpaced post) :=
  decidable_of_iff (post.head?.all isSpace = true) (Option.all_eq_true _ _)

theorem EndsSpaced.of_append {a b : List Char} (h : EndsSpaced (a ++ b)) : EndsSpaced b := by
  intro c hc
  refine h c ?_
  rw [List.getLast?_append, Option.mem_def.1 hc]
  rfl

theorem not_endsSpaced {text : List Char} (hne : text ≠ []) (h : Stops isSpace text.reverse) :
    ¬EndsSpaced text := by
  intro hends
  obtain ⟨a, c, rfl⟩ := (List.eq_nil_or_concat' text).resolve_left hne
  have hspace : isSpace c = true := hends c (by simp)
  have : isSpace c = false := h c (by simp)
  rw [hspace] at this
  cases this

theorem IsSolid.not_endsSpaced {text : List Char} (h : IsSolid text) : ¬EndsSpaced text :=
  Compact.not_endsSpaced h.1
    (stops_isSpace_of_isBlank (stops_of_forall fun c hc => h.2 c (List.mem_reverse.1 hc)))

/-- What the elements of a scanner have in common, so that one between separators stays whole. -/
structure Scanner.Separable {β : Type} (scanner : Scanner β) (Shape : List Char → Prop) :
    Prop where
  /-- An element is read again in front of separators, and in front of what begins alike. -/
  again : ∀ {s rest : List Char} {e : β}, scanner.read? s = some (e, rest) →
    ∃ text, Shape text ∧ s = text ++ rest ∧
      ∀ more, (∀ c ∈ more.head?, isSpace c = true ∨ c ∈ rest.head?) →
        scanner.read? (text ++ more) = some (e, more)
  ne_nil : ∀ {text}, Shape text → text ≠ []
  start : ∀ {text}, Shape text → Stops isBlank text
  stop : ∀ {text}, Shape text → Stops isBlank text.reverse
  /-- No element runs over a separator into another one. -/
  apart : ∀ {text front back rest post : List Char}, Shape text → Shape (front ++ back) →
    front ≠ [] → EndsSpaced front → back ≠ [] → back ++ rest = text ++ post → False

theorem options_separable : options.Separable IsSolid where
  again := option?_solid
  ne_nil h := h.1
  start h := stops_of_forall h.2
  stop h := stops_of_forall fun c hc => h.2 c (List.mem_reverse.1 hc)
  apart _ h hne hends _ _ := IsSolid.not_endsSpaced ⟨hne, fun c hc =>
    h.2 c (List.mem_append_left _ hc)⟩ hends

/-- An unfinished element in front of a whole one has too few commas behind it to go on to its
end. -/
theorem Bracketed.not_across {least : Nat} {text front back rest post : List Char}
    (htext : Bracketed least text) (h : Bracketed least (front ++ back)) (hne : front ≠ [])
    (hends : EndsSpaced front) (hback : back ≠ []) (heq : back ++ rest = text ++ post) : False := by
  obtain ⟨word, inner, -, rfl, hclosing, hmany, -⟩ := htext
  obtain ⟨word', inner', hword', hcut, hclosing', -, hfew⟩ := h
  -- the separator at the end of `front` is behind the bracket
  have hsolid (w : List Char) : word' ≠ front ++ w := by
    rintro rfl
    exact IsSolid.not_endsSpaced
      ⟨hne, fun c hc => hword'.2 c (List.mem_append_left w hc)⟩ hends
  obtain ⟨w, hinner⟩ : ∃ w, inner' ++ [')'] = w ++ back := by
    rcases List.append_eq_append_iff.1 hcut with ⟨w, hw, -⟩ | ⟨w, hw, hback⟩
    · exact absurd hw (hsolid w)
    · cases w with
      | nil => exact absurd (by simpa using hw.symm) (hsolid [])
      | cons c w => exact ⟨w, (List.cons.inj hback).2⟩
  -- so the two elements end at the same bracket, and the whole one is behind that of `front`
  obtain ⟨b, c, rfl⟩ := (List.eq_nil_or_concat' back).resolve_left hback
  rw [← List.append_assoc] at hinner
  obtain ⟨rfl, hc⟩ := List.append_inj' hinner rfl
  obtain rfl := (List.cons.inj hc).1
  have hb : ')' ∉ b := fun h => hclosing' (by simp [h])
  have hwhole : b ++ ')' :: rest = (word ++ '(' :: inner) ++ ')' :: post := by
    simpa using heq
  obtain ⟨x, hx, hrest⟩ := exists_of_append_eq hb hwhole
  obtain rfl : x = [] := by
    cases x with
    | nil => rfl
    | cons d x =>
      obtain ⟨rfl, -⟩ := List.cons.inj hrest
      exact absurd (hx ▸ List.mem_append_right b List.mem_cons_self) hclosing
  obtain rfl : word ++ '(' :: inner = b := by rw [hx, List.append_nil]
  have := hfew (w ++ word) inner (by simp)
  omega

/-- The elements in brackets of a scanner that has them end at their own last character. -/
theorem Scanner.separable_of_bracketed {β : Type} {scanner : Scanner β} {least : Nat}
    (h : ∀ {s rest : List Char} {e : β}, scanner.read? s = some (e, rest) →
      ∃ text, Bracketed least text ∧ s = text ++ rest ∧
        ∀ more, scanner.read? (text ++ more) = some (e, more)) :
    scanner.Separable (Bracketed least) where
  again hread := by
    obtain ⟨text, htext, hs, hagain⟩ := h hread
    exact ⟨text, htext, hs, fun more _ => hagain more⟩
  ne_nil := by
    rintro _ ⟨word, inner, hword, rfl, -⟩
    exact List.append_ne_nil_of_left_ne_nil hword.1 _
  start := by
    rintro _ ⟨word, inner, hword, rfl, -⟩
    exact Text.stops_append hword.1 (stops_of_forall hword.2) _
  stop := by
    rintro _ ⟨word, inner, -, rfl, -⟩
    have : (word ++ '(' :: (inner ++ [')'])).reverse = ')' :: (word ++ '(' :: inner).reverse := by
      simp
    rw [this]
    exact Text.stops_cons_iff.2 (by decide)
  apart := Bracketed.not_across

theorem points_separable : points.Separable (Bracketed 1) :=
  Scanner.separable_of_bracketed point?_bracketed

theorem forces_separable : forces.Separable (Bracketed 2) :=
  Scanner.separable_of_bracketed force?_bracketed

/-- A word that is cut off by a separator is the same word in front of anything. -/
theorem word_append {c : Char} {more : List Char} (hc : isSpace c = false)
    (hends : EndsSpaced (c :: more)) (tail : List Char) :
    (more ++ tail).takeWhile (!isSpace ·) = more.takeWhile (!isSpace ·) ∧
      (more ++ tail).dropWhile (!isSpace ·) = more.dropWhile (!isSpace ·) ++ tail ∧
      EndsSpaced (more.dropWhile (!isSpace ·)) := by
  have hcut : more.takeWhile (!isSpace ·) ++ more.dropWhile (!isSpace ·) = more :=
    List.takeWhile_append_dropWhile
  have hword : ∀ d ∈ more.takeWhile (!isSpace ·), (!isSpace d) = true :=
    List.all_eq_true.1 List.all_takeWhile
  have hafter : more.dropWhile (!isSpace ·) ≠ [] := by
    intro hnil
    rw [List.dropWhile_eq_nil_iff] at hnil
    refine not_endsSpaced (List.cons_ne_nil c more) (stops_of_forall fun d hd => ?_) hends
    rcases List.mem_cons.1 (List.mem_reverse.1 hd) with rfl | hd
    · exact hc
    · simpa using hnil d hd
  have hstop : Stops (!isSpace ·) (more.dropWhile (!isSpace ·) ++ tail) :=
    Text.stops_append hafter (Text.stops_dropWhile _ more) tail
  refine ⟨?_, ?_, ?_⟩
  · conv_lhs => rw [← hcut, List.append_assoc]
    exact Text.takeWhile_append_of_stops hword hstop
  · conv_lhs => rw [← hcut, List.append_assoc]
    exact Text.dropWhile_append_of_stops hword hstop
  · rw [← hcut, ← List.cons_append] at hends
    exact hends.of_append

/-- Blanks are taken away in front of and behind a text that begins and ends with none. -/
theorem trim_around {elt : List Char} (hne : elt ≠ []) (hstart : Stops isBlank elt)
    (hstop : Stops isBlank elt.reverse) (pre post : List Char) :
    trim (pre ++ (elt ++ post)) = trimStart pre ++ (elt ++ trimEnd post) := by
  have happend {s t : List Char} (hs : Stops isBlank s) (ht : Stops isBlank t) :
      Stops isBlank (s ++ t) := by
    cases s with
    | nil => exact ht
    | cons c s => exact hs
  have hfront : Stops isBlank (trimStart pre ++ (elt ++ trimEnd post)) :=
    happend (Text.stops_dropWhile isBlank pre) (Text.stops_append hne hstart _)
  have hback : Stops isBlank (trimStart pre ++ (elt ++ trimEnd post)).reverse := by
    rw [List.reverse_append, List.reverse_append, List.append_assoc, trimEnd, List.reverse_reverse]
    exact happend (Text.stops_dropWhile isBlank post.reverse)
      (Text.stops_append (fun h => hne (List.reverse_eq_nil_iff.1 h)) hstop _)
  have hpre : pre = pre.takeWhile isBlank ++ trimStart pre := List.takeWhile_append_dropWhile.symm
  calc trim (pre ++ (elt ++ post))
      = trim (pre.takeWhile isBlank ++ ((trimStart pre ++ (elt ++ trimEnd post)) ++
          (post.reverse.takeWhile isBlank).reverse)) := by
        conv_lhs => rw [hpre, Text.eq_trimEnd_append post]
        simp only [List.append_assoc]
    _ = trimStart pre ++ (elt ++ trimEnd post) :=
        Text.trim_surround (List.all_eq_true.1 List.all_takeWhile)
          (fun c hc => List.all_eq_true.1 List.all_takeWhile c (List.mem_reverse.1 hc))
          (Text.trim_eq_self_of_stops hfront hback)

theorem EndsSpaced.trimStart {pre : List Char} (h : EndsSpaced pre) :
    EndsSpaced (trimStart pre) := by
  rw [← List.takeWhile_append_dropWhile (p := isBlank) (l := pre)] at h
  exact h.of_append

theorem StartsSpaced.trimEnd {post : List Char} (h : StartsSpaced post) :
    StartsSpaced (trimEnd post) := by
  intro c hc
  refine h c ?_
  rw [Text.eq_trimEnd_append post, List.head?_append, Option.mem_def.1 hc]
  rfl

namespace Scanner

variable {β : Type} {scanner : Scanner β} {Shape : List Char → Prop}
  {s rest elt : List Char} {e : β}

/-- Every element of a scanner ends with a character that is no separator. -/
theorem Separable.not_endsSpaced (h : scanner.Separable Shape) {text : List Char}
    (htext : Shape text) : ¬EndsSpaced text :=
  Compact.not_endsSpaced (h.ne_nil htext) (stops_isSpace_of_isBlank (h.stop htext))

/-- An element that is read in a text that ends with a separator is read in every longer one. -/
theorem Separable.read_append (h : scanner.Separable Shape) (hs : EndsSpaced s)
    (hread : scanner.read? s = some (e, rest)) (tail : List Char) :
    EndsSpaced rest ∧ (∃ text, s = text ++ rest) ∧
      scanner.read? (s ++ tail) = some (e, rest ++ tail) := by
  obtain ⟨text, htext, rfl, hagain⟩ := h.again hread
  have hrest : rest ≠ [] := by
    rintro rfl
    rw [List.append_nil] at hs
    exact h.not_endsSpaced htext hs
  refine ⟨hs.of_append, ⟨text, rfl⟩, ?_⟩
  rw [List.append_assoc]
  refine hagain _ fun c hc => .inr ?_
  rwa [List.head?_append_of_ne_nil rest hrest] at hc

/-- Where nothing is read in a text that ends with a separator, nothing is read in front of an
element either. -/
theorem Separable.unread_append (h : scanner.Separable Shape) (hne : s ≠ []) (hs : EndsSpaced s)
    (hread : scanner.read? s = none) (helt : Shape elt) (post : List Char) :
    scanner.read? (s ++ (elt ++ post)) = none := by
  rcases hr : scanner.read? (s ++ (elt ++ post)) with _ | ⟨e, rest⟩
  · rfl
  obtain ⟨text, htext, hfound, hagain⟩ := h.again hr
  rcases List.append_eq_append_iff.1 hfound with ⟨back, rfl, hback⟩ | ⟨w, rfl, rfl⟩
  · -- an element that runs over the end of `s`
    exfalso
    by_cases hnil : back = []
    · subst hnil
      rw [List.append_nil] at htext
      exact h.not_endsSpaced htext hs
    · exact h.apart helt htext hne hs hnil hback.symm
  · -- an element that ends in `s` would be read in it as well
    have := hagain w fun c hc => .inr (by rw [List.head?_append, Option.mem_def.1 hc]; rfl)
    rw [hread] at this
    cases this

/-- An element between separators is a token of its own. -/
theorem Separable.tokens_append (h : scanner.Separable Shape) {pre post : List Char}
    (hpre : EndsSpaced pre) (hpost : StartsSpaced post)
    (helt : scanner.read? elt = some (e, [])) :
    scanner.tokens (pre ++ (elt ++ post)) =
      scanner.tokens pre ++ ⟨elt, some e⟩ :: scanner.tokens post := by
  obtain ⟨text, hshape, htext, hagain⟩ := h.again helt
  obtain rfl : elt = text := by rw [htext, List.append_nil]
  have helt' : scanner.read? (elt ++ post) = some (e, post) :=
    hagain post fun c hc => .inl (hpost c hc)
  -- what is skipped of `pre` is skipped, whatever stands behind it
  have hskip {s t : List Char} (hs : skipSpaces s = t) (ht : Stops isSpace (t ++ (elt ++ post))) :
      skipSpaces (s ++ (elt ++ post)) = t ++ (elt ++ post) := by
    obtain ⟨u, hu, hcut⟩ := Text.exists_skipSpaces s
    rw [hcut, hs, List.append_assoc, Text.skipSpaces_append hu, Text.skipSpaces_of_stops ht]
  have hends {s t : List Char} (hs : skipSpaces s = t) (h : EndsSpaced s) : EndsSpaced t := by
    obtain ⟨u, -, hcut⟩ := Text.exists_skipSpaces s
    rw [hs] at hcut
    exact (hcut ▸ h).of_append
  fun_induction Scanner.tokens scanner pre with
  | case1 s hs =>
    have hstart : Stops isSpace (elt ++ post) :=
      Text.stops_append (h.ne_nil hshape) (stops_isSpace_of_isBlank (h.start hshape)) post
    rw [tokens_of_read (hskip hs hstart) helt', List.nil_append, List.nil_append,
      List.length_append, Nat.add_sub_cancel, List.take_left]
  | case2 s c more hs e' rest hread ih =>
    have hc : isSpace c = false := Text.stops_cons_iff.1 (hs ▸ Text.stops_skipSpaces s)
    obtain ⟨hrest, ⟨text, hfound⟩, hread'⟩ := h.read_append (hends hs hpre) hread (elt ++ post)
    rw [tokens_of_read (hskip hs (Text.stops_cons_iff.2 hc)) hread', ih hrest, hfound,
      List.append_assoc, List.length_append, Nat.add_sub_cancel, List.take_left,
      List.length_append, Nat.add_sub_cancel, List.take_left, List.cons_append]
  | case3 s c more hs hread ih =>
    have hc : isSpace c = false := Text.stops_cons_iff.1 (hs ▸ Text.stops_skipSpaces s)
    have hread' := h.unread_append (List.cons_ne_nil c more) (hends hs hpre) hread hshape post
    have hskip' := hskip hs (Text.stops_cons_iff.2 hc)
    obtain ⟨hword, hafter, hrest⟩ := word_append hc (hends hs hpre) (elt ++ post)
    rw [List.cons_append] at hread' hskip'
    rw [tokens_of_unread hskip' hread', hword, hafter, ih hrest, List.cons_append]

/-- An element that stays whole where it stands: the tokens in front of it are those of the text in
front, and the tokens behind it those of the text behind. -/
structure Isolates (scanner : Scanner β) (IsWritten : β → List Char → Prop)
    (pre elt post : List Char) (e : β) : Prop where
  tokens : scanner.tokens (pre ++ (elt ++ post)) =
    scanner.tokens pre ++ ⟨elt, some e⟩ :: scanner.tokens post
  /-- As a section is read, without the blanks at its ends. -/
  trimmed : scanner.tokens (trim (pre ++ (elt ++ post))) =
    scanner.tokens (trimStart pre) ++ ⟨elt, some e⟩ :: scanner.tokens (trimEnd post)
  written : IsWritten e elt
  before : Spells IsWritten pre (scanner.tokens pre)
  after : Spells IsWritten post (scanner.tokens post)

theorem Separable.isolates (h : scanner.Separable Shape) {IsWritten : β → List Char → Prop}
    (hsound : ∀ {s rest : List Char} {e : β}, scanner.read? s = some (e, rest) →
      ∃ text, IsWritten e text ∧ s = text ++ rest)
    {pre post : List Char} (hpre : EndsSpaced pre) (hpost : StartsSpaced post)
    (helt : scanner.read? elt = some (e, [])) : scanner.Isolates IsWritten pre elt post e where
  tokens := h.tokens_append hpre hpost helt
  trimmed := by
    obtain ⟨text, hshape, htext, -⟩ := h.again helt
    obtain rfl : elt = text := by rw [htext, List.append_nil]
    rw [trim_around (h.ne_nil hshape) (h.start hshape) (h.stop hshape)]
    exact h.tokens_append hpre.trimStart hpost.trimEnd helt
  written := by
    obtain ⟨text, hwritten, htext⟩ := hsound helt
    rw [List.append_nil] at htext
    rwa [htext]
  before := spells_tokens hsound pre
  after := spells_tokens hsound post

end Scanner

/-- **A token that is no element costs no element beside it.**  An element that has separators or
nothing on its two sides is a token where it stands, whatever stands in front and behind: unclosed
brackets, unfinished coordinates or labels, or anything else. -/
theorem tokens_recover {pre post : List Char} (hpre : EndsSpaced pre) (hpost : StartsSpaced post)
    (elt : List Char) :
    (∀ p, point? elt = some (p, []) → points.Isolates PointText.IsWritten pre elt post p) ∧
      (∀ f, force? elt = some (f, []) → forces.Isolates ForceText.IsWritten pre elt post f) ∧
      (∀ o, option? elt = some (o, []) → options.Isolates OptionText.IsWritten pre elt post o) :=
  ⟨fun _ h => points_separable.isolates point?_sound hpre hpost h,
    fun _ h => forces_separable.isolates force?_sound hpre hpost h,
    fun _ h => options_separable.isolates option?_sound hpre hpost h⟩

/-- Behind elements whose brackets and labels are left open. -/
theorem tokens_recover_unclosed :
    points.Isolates PointText.IsWritten "A(1,2,open Q(7, ".toList "P(3 ,4,a (b)".toList " x)".toList
        ⟨"P".toList, "3".toList, "4".toList, some "a (b".toList⟩ ∧
      forces.Isolates ForceText.IsWritten "F@A(1,2,open,pull ".toList
        "G@B(-3.5,90,up load,reaction)".toList " )".toList
        ⟨"G".toList, "B".toList, "-3.5".toList, "90".toList, "up load".toList,
          some "reaction".toList⟩ ∧
      options.Isolates OptionText.IsWritten "grid=\t".toList "axes=true".toList "\n=false".toList
        ⟨"axes".toList, "true".toList⟩ :=
  ⟨(tokens_recover (by decide) (by decide) _).1 _ rfl,
    (tokens_recover (by decide) (by decide) _).2.1 _ rfl,
    (tokens_recover (by decide) (by decide) _).2.2 _ rfl⟩

end FreeBody.Compact
