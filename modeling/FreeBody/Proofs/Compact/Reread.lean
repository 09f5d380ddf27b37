import FreeBody.Proofs.Compact.RoundTrip
import FreeBody.Proofs.Compact.Spelling

/-!
# Elements read again

What an element leaves of a text has no part in it: a point or a force that was read is read again
in front of anything (`point?_bracketed`, `force?_bracketed`), an option in front of separators
(`option?_solid`).  So it is for every part of an element in front of the mark that it stopped at
(`StopsAt`).

The lemmas on elements tell their shape as well: where they are closed, and how many commas there
are behind their brackets.
-/

namespace FreeBody.Compact

open Text (Stops Spaces isSpace isBlank skipSpaces)

/-! ## Parts in front of a mark -/

/-- A part without brackets and commas. -/
structure Unmarked (text : List Char) : Prop where
  opening : '(' ∉ text
  closing : ')' ∉ text
  comma : ',' ∉ text

theorem unmarked_iff {text : List Char} : Unmarked text ↔ ∀ c ∈ ['(', ')', ','], c ∉ text := by
  simp only [List.forall_mem_cons]
  exact ⟨fun h => ⟨h.opening, h.closing, h.comma, List.forall_mem_nil _⟩,
    fun h => ⟨h.1, h.2.1, h.2.2.1⟩⟩

theorem Unmarked.append {s t : List Char} (hs : Unmarked s) (ht : Unmarked t) :
    Unmarked (s ++ t) := by
  rw [unmarked_iff] at hs ht ⊢
  intro c hc hmem
  exact (List.mem_append.1 hmem).elim (hs c hc) (ht c hc)

/-- Characters of a kind that the marks are not of. -/
theorem unmarked_of_forall {p : Char → Bool} (hp : ∀ c ∈ ['(', ')', ','], p c = false)
    {text : List Char} (h : ∀ c ∈ text, p c = true) : Unmarked text := by
  rw [unmarked_iff]
  intro c hc hmem
  have := h c hmem
  rw [hp c hc] at this
  cases this

theorem unmarked_spaces {text : List Char} (h : Spaces text) : Unmarked text :=
  unmarked_of_forall (by decide) h

/-- A reader that has read up to the mark `stop` has taken a text, of which `P` holds, that it
takes whatever stands behind the mark. -/
def StopsAt {α : Type} (read? : List Char → Option (α × List Char)) (P : List Char → Prop)
    (stop : Char) : Prop :=
  ∀ {s rest : List Char} {a : α}, read? s = some (a, stop :: rest) →
    ∃ text, P text ∧ s = text ++ stop :: rest ∧
      ∀ more, read? (text ++ stop :: more) = some (a, stop :: more)

section

variable {p : Char → Bool} {s part rest : List Char} {stop : Char}

theorem stops_of_some? (h : some? p s = some (part, rest)) : Stops p rest := by
  unfold some? at h
  split at h
  · cases h
  · obtain ⟨-, rfl⟩ := Prod.mk.inj (Option.some.inj h)
    exact Text.stops_dropWhile p s

theorem some?_stopsAt (p : Char → Bool) (stop : Char) :
    StopsAt (some? p) (fun text => text ≠ [] ∧ ∀ c ∈ text, p c = true) stop := by
  intro s rest part h
  obtain ⟨hne, hall, hs⟩ := some?_eq_some h
  have hstop := Text.stops_cons_iff.1 (stops_of_some? h)
  exact ⟨part, ⟨hne, hall⟩, hs, fun more => some?_append hne hall (Text.stops_cons_iff.2 hstop)⟩

/-- A run of characters that no separator is of stops in front of separators, and in front of what
begins like a text that it stopped in front of. -/
theorem stops_of_head? {more : List Char} (hp : ∀ {c}, p c = true → isSpace c = false)
    (hrest : Stops p rest) (hmore : ∀ c ∈ more.head?, isSpace c = true ∨ c ∈ rest.head?) :
    Stops p more := by
  intro c hc
  rcases hmore c hc with hspace | hc
  · rw [Bool.eq_false_iff]
    intro h
    rw [hp h] at hspace
    cases hspace
  · exact hrest c hc

/-- What a number is made of, and what cannot follow it. -/
theorem number?_eq_some (h : number? s = some (part, rest)) :
    ∃ (negative : Bool) (whole places : List Char), whole ≠ [] ∧
      (∀ c ∈ whole, Decimal.isDigit c = true) ∧ (∀ c ∈ places, Decimal.isDigit c = true) ∧
      part = Decimal.sign negative ++ whole ++ Decimal.point places ∧
      Stops Decimal.isDigit rest := by
  obtain ⟨⟨whole, r⟩, hw, hr⟩ := Option.bind_eq_some_iff.1 h
  obtain ⟨rfl, rfl⟩ := Prod.mk.inj (Option.some.inj hr)
  obtain ⟨hne, hall, -⟩ := some?_eq_some hw
  have hsign : ∃ negative, (minus s).1 = Decimal.sign negative := by
    unfold minus
    split
    · exact ⟨true, rfl⟩
    · exact ⟨false, rfl⟩
  have hplaces : ∃ ds, (∀ c ∈ ds, Decimal.isDigit c = true) ∧
      (places r).1 = Decimal.point ds ∧ Stops Decimal.isDigit (places r).2 := by
    have hr := stops_of_some? hw
    unfold places
    split
    next more =>
      split
      next ds after hds =>
        obtain ⟨hdsne, hdsall, -⟩ := some?_eq_some hds
        exact ⟨ds, hdsall, (if_neg hdsne).symm, stops_of_some? hds⟩
      next => exact ⟨[], List.forall_mem_nil _, rfl, hr⟩
    next => exact ⟨[], List.forall_mem_nil _, rfl, hr⟩
  obtain ⟨negative, hsign⟩ := hsign
  obtain ⟨ds, hds, htext, hstops⟩ := hplaces
  exact ⟨negative, whole, ds, hne, hall, hds, by rw [hsign, htext], hstops⟩

/-- A reader of parts without marks that takes a part again in front of separators, and in front
of `stop` where it stopped there. -/
def Resumes (read? : List Char → Option (List Char × List Char)) (stop : Char) : Prop :=
  ∀ {s part rest : List Char}, read? s = some (part, rest) →
    part ≠ [] ∧ Unmarked part ∧ s = part ++ rest ∧
      ∀ more, (∀ c ∈ more.head?, isSpace c = true ∨ (c = stop ∧ c ∈ rest.head?)) →
        read? (part ++ more) = some (part, more)

theorem number?_resumes (hstop : stop ≠ '.') : Resumes number? stop := by
  intro s part rest h
  have hsound := number?_sound h
  obtain ⟨negative, whole, places, hne, hw, hp, rfl, hdigit⟩ := number?_eq_some h
  have hsign : Unmarked (Decimal.sign negative) := by
    cases negative <;> exact unmarked_iff.2 (by decide)
  have hpoint : Unmarked (Decimal.point places) := by
    unfold Decimal.point
    split_ifs
    · exact unmarked_iff.2 (by decide)
    · exact (unmarked_iff.2 (by decide) : Unmarked ['.']).append
        (unmarked_of_forall (by decide) hp)
  refine ⟨by simp [hne], (hsign.append (unmarked_of_forall (by decide) hw)).append hpoint, hsound,
    fun more hmore => number?_numeral hne hw hp negative
      (stops_of_head? Decimal.isSpace_eq_false_of_isDigit hdigit
        fun c hc => (hmore c hc).imp_right And.right) fun c hc => ?_⟩
  rw [beq_eq_false_iff_ne]
  rcases hmore c hc with hspace | ⟨rfl, -⟩
  · rintro rfl
    cases hspace
  · exact hstop

theorem ident?_resumes (stop : Char) : Resumes ident? stop := by
  intro s part rest h
  obtain ⟨hne, hall, hs⟩ := some?_eq_some h
  exact ⟨hne, unmarked_of_forall (by decide) hall, hs, fun more hmore => some?_append hne hall
    (stops_of_head? isSpace_eq_false_of_isIdentChar (stops_of_some? h)
      fun c hc => (hmore c hc).imp_right And.right)⟩

/-- A part with separators around it. -/
theorem stopsAt_spaced {read? : List Char → Option (List Char × List Char)}
    (h : Resumes read? stop) :
    StopsAt (fun s => (read? (skipSpaces s)).bind fun p => some (p.1, skipSpaces p.2)) Unmarked
      stop := by
  intro s rest part hread
  obtain ⟨⟨part', after⟩, hpart, hresult⟩ := Option.bind_eq_some_iff.1 hread
  obtain ⟨rfl, hrest⟩ : part' = part ∧ skipSpaces after = stop :: rest :=
    Prod.mk.inj (Option.some.inj hresult)
  obtain ⟨hne, hunmarked, hfound, hagain⟩ := h hpart
  obtain ⟨u, hu, hs⟩ := Text.exists_skipSpaces s
  obtain ⟨v, hv, hafter⟩ := Text.exists_skipSpaces after
  have hfront : Stops isSpace part' := by
    have := Text.stops_skipSpaces s
    obtain ⟨c, cs, rfl⟩ := List.exists_cons_of_ne_nil hne
    rw [hfound] at this
    exact Text.stops_cons_iff.2 (Text.stops_cons_iff.1 this)
  have hstop : isSpace stop = false := by
    have := Text.stops_skipSpaces after
    rw [hrest] at this
    exact Text.stops_cons_iff.1 this
  rw [hrest] at hafter
  refine ⟨u ++ (part' ++ v), (unmarked_spaces hu).append (hunmarked.append (unmarked_spaces hv)),
    ?_, fun more => ?_⟩
  · rw [hs, hfound, hafter, List.append_assoc, List.append_assoc]
  · have hpart : read? (part' ++ (v ++ stop :: more)) = some (part', v ++ stop :: more) := by
      refine hagain _ fun c hc => ?_
      cases v with
      | nil =>
        obtain rfl := Option.some.inj hc
        exact .inr ⟨rfl, by rw [hafter]; rfl⟩
      | cons d v =>
        obtain rfl := Option.some.inj hc
        exact .inl (hv d List.mem_cons_self)
    have hskip : skipSpaces (u ++ (part' ++ (v ++ stop :: more))) =
        part' ++ (v ++ stop :: more) := by
      rw [Text.skipSpaces_append hu, Text.skipSpaces_of_stops (Text.stops_append hne hfront _)]
    have hskip' : skipSpaces (v ++ stop :: more) = stop :: more := by
      rw [Text.skipSpaces_append hv, Text.skipSpaces_of_stops (Text.stops_cons_iff.2 hstop)]
    simp only [List.append_assoc, hskip, hpart, Option.bind_some, hskip']

theorem coordinate?_stopsAt (hstop : stop ≠ '.') : StopsAt coordinate? Unmarked stop :=
  stopsAt_spaced (number?_resumes hstop)

theorem kind?_stopsAt (stop : Char) : StopsAt kind? Unmarked stop :=
  stopsAt_spaced (ident?_resumes stop)

theorem label?_stopsAt (stop : Char) :
    StopsAt label? (fun text => ',' ∉ text ∧ ')' ∉ text) stop := by
  intro s rest label h
  obtain ⟨text, ⟨-, hall⟩, hs, hagain⟩ := some?_stopsAt _ stop h
  refine ⟨text, ⟨fun hc => ?_, fun hc => ?_⟩, hs, hagain⟩
  · exact absurd (hall _ hc) (by decide)
  · exact absurd (hall _ hc) (by decide)

/-- An optional part in front of a mark. -/
theorem optional?_stopsAt {part? : List Char → Option (List Char × List Char)}
    {P : List Char → Prop} (hpart : StopsAt part? P stop) (hstop : stop ≠ ',')
    {l : Option (List Char)} (h : optional? part? s = (l, stop :: rest)) :
    ∃ text, (text = [] ∨ ∃ t, P t ∧ text = ',' :: t) ∧ s = text ++ stop :: rest ∧
      ∀ more, optional? part? (text ++ stop :: more) = (l, stop :: more) := by
  unfold optional? at h
  split at h
  next s' hcomma =>
    obtain rfl := char?_sound hcomma
    split at h
    next found after hfound =>
      obtain ⟨rfl, rfl⟩ := Prod.mk.inj h
      obtain ⟨t, ht, rfl, hagain⟩ := hpart hfound
      refine ⟨',' :: t, .inr ⟨t, ht, rfl⟩, rfl, fun more => ?_⟩
      simp only [optional?, List.cons_append, char?_cons, hagain]
    next => exact absurd (List.cons.inj (Prod.mk.inj h).2).1.symm hstop
  next hcomma =>
    obtain ⟨rfl, rfl⟩ := Prod.mk.inj h
    refine ⟨[], .inl rfl, rfl, fun more => ?_⟩
    simp only [optional?, List.nil_append, char?_cons_ne hstop]

end

/-! ## Elements with brackets -/

/-- A text without blanks that is not empty. -/
def IsSolid (text : List Char) : Prop := text ≠ [] ∧ ∀ c ∈ text, isBlank c = false

theorem IsName.isSolid {name : List Char} (h : IsName name) : IsSolid name :=
  ⟨h.1, fun c hc => isBlank_of_isIdentChar (h.2 c hc)⟩

theorem IsName.closing {name : List Char} (h : IsName name) : ')' ∉ name :=
  fun hmem => absurd (h.2 _ hmem) (by decide)

theorem isSolid_joined {a b : List Char} (ha : IsName a) (hb : IsName b) {mark : Char}
    (hmark : isBlank mark = false) : IsSolid (a ++ mark :: b) := by
  refine ⟨List.append_ne_nil_of_left_ne_nil ha.1 _, fun c hc => ?_⟩
  rcases List.mem_append.1 hc with hc | hc
  · exact ha.isSolid.2 c hc
  · rcases List.mem_cons.1 hc with rfl | hc
    · exact hmark
    · exact hb.isSolid.2 c hc

/-- A text with a word in front of a bracket, which is closed at its end and nowhere before.  Behind
that bracket there are `least` commas or more, and fewer behind any further one. -/
def Bracketed (least : Nat) (text : List Char) : Prop :=
  ∃ word inner, IsSolid word ∧ text = word ++ '(' :: (inner ++ [')']) ∧
    ')' ∉ word ++ '(' :: inner ∧ least ≤ inner.count ',' ∧
    ∀ u v, inner = u ++ '(' :: v → v.count ',' < least

/-- Where a mark stands behind text without it. -/
theorem exists_of_append_eq {c : Char} {a b u v : List Char} (ha : c ∉ a)
    (h : a ++ b = u ++ c :: v) : ∃ w, u = a ++ w ∧ b = w ++ c :: v := by
  rcases List.append_eq_append_iff.1 h with ⟨w, hu, hb⟩ | ⟨w, hw, hb⟩
  · exact ⟨w, hu, hb⟩
  · cases w with
    | nil => exact ⟨[], by simpa using hw.symm, by simpa using hb.symm⟩
    | cons d w =>
      obtain ⟨rfl, -⟩ := List.cons.inj hb
      exact absurd (hw ▸ List.mem_append_right u List.mem_cons_self) ha

/-- The commas that count stand in front, where there is no further bracket. -/
theorem bracketed_append {least : Nat} {word a b : List Char} (hword : IsSolid word)
    (hopening : '(' ∉ a) (hclosing : ')' ∉ word ++ '(' :: (a ++ b)) (ha : least ≤ a.count ',')
    (hb : b.count ',' < least) : Bracketed least (word ++ '(' :: (a ++ b ++ [')'])) := by
  refine ⟨word, a ++ b, hword, rfl, hclosing, ?_, fun u v huv => ?_⟩
  · rw [List.count_append]
    omega
  · obtain ⟨w, -, rfl⟩ := exists_of_append_eq hopening huv
    rw [List.count_append, List.count_cons_of_ne (by decide)] at hb
    omega

theorem count_comma_append (a b : List Char) :
    (a ++ ',' :: b).count ',' = a.count ',' + b.count ',' + 1 := by
  rw [List.count_append, List.count_cons_self, Nat.add_assoc]

theorem point?_bracketed {s rest : List Char} {t : PointText} (h : point? s = some (t, rest)) :
    ∃ text, Bracketed 1 text ∧ s = text ++ rest ∧
      ∀ more, point? (text ++ more) = some (t, more) := by
  obtain ⟨⟨id, s₁⟩, h₁, h⟩ := Option.bind_eq_some_iff.1 h
  obtain ⟨s₂, h₂, h⟩ := Option.bind_eq_some_iff.1 h
  obtain ⟨⟨x, s₃⟩, h₃, h⟩ := Option.bind_eq_some_iff.1 h
  obtain ⟨s₄, h₄, h⟩ := Option.bind_eq_some_iff.1 h
  obtain ⟨⟨y, s₅⟩, h₅, h⟩ := Option.bind_eq_some_iff.1 h
  rcases hs₅ : optional? label? s₅ with ⟨label, s₆⟩
  simp only [hs₅] at h
  obtain ⟨s₇, h₇, h⟩ := Option.bind_eq_some_iff.1 h
  obtain ⟨rfl, rfl⟩ := Prod.mk.inj (Option.some.inj h)
  obtain rfl := char?_sound h₂
  obtain rfl := char?_sound h₄
  obtain rfl := char?_sound h₇
  obtain ⟨idText, hid, rfl, hid'⟩ := some?_stopsAt isIdentChar '(' h₁
  have hid : IsName idText := hid
  obtain ⟨xText, hx, rfl, hx'⟩ := coordinate?_stopsAt (by decide) h₃
  obtain ⟨labelText, hlabel, rfl, hlabel'⟩ :=
    optional?_stopsAt (label?_stopsAt ')') (by decide) hs₅
  -- the second coordinate stops at the comma of a label, or at the closing bracket
  have hy : ∃ yText, Unmarked yText ∧ s₄ = yText ++ (labelText ++ ')' :: s₇) ∧
      ∀ more, coordinate? (yText ++ (labelText ++ ')' :: more)) =
        some (y, labelText ++ ')' :: more) := by
    rcases hlabel with rfl | ⟨label, -, rfl⟩
    · exact coordinate?_stopsAt (by decide) h₅
    · obtain ⟨yText, hy, hs₄, hy'⟩ := coordinate?_stopsAt (by decide) h₅
      exact ⟨yText, hy, hs₄, fun more => hy' _⟩
  obtain ⟨yText, hy, rfl, hy'⟩ := hy
  refine ⟨idText ++ '(' :: (xText ++ ',' :: (yText ++ (labelText ++ [')']))), ?_, ?_,
    fun more => ?_⟩
  · rcases hlabel with rfl | ⟨label, ⟨hcomma, hclosing⟩, rfl⟩
    · have : Bracketed 1 (idText ++ '(' :: (xText ++ ',' :: yText ++ [] ++ [')'])) :=
        bracketed_append hid.isSolid (by simp [hx.opening, hy.opening])
          (by simp [hid.closing, hx.closing, hy.closing]) (by rw [count_comma_append]; omega)
          (by decide)
      simpa using this
    · have : Bracketed 1 (idText ++ '(' :: (xText ++ ',' :: (yText ++ [',']) ++ label ++ [')'])) :=
        bracketed_append hid.isSolid (by simp [hx.opening, hy.opening])
          (by simp [hid.closing, hx.closing, hy.closing, hclosing])
          (by rw [count_comma_append]; omega)
          (by rw [List.count_eq_zero.2 hcomma]; decide)
      simpa using this
  · simp only [List.append_assoc, List.cons_append, List.nil_append]
  · simp only [List.append_assoc, List.cons_append, List.nil_append, point?, ident?, hid',
      Option.bind_eq_bind, Option.bind_some, char?_cons, hx', hy', hlabel', Option.pure_def]

theorem force?_bracketed {s rest : List Char} {t : ForceText} (h : force? s = some (t, rest)) :
    ∃ text, Bracketed 2 text ∧ s = text ++ rest ∧
      ∀ more, force? (text ++ more) = some (t, more) := by
  obtain ⟨⟨id, s₁⟩, h₁, h⟩ := Option.bind_eq_some_iff.1 h
  obtain ⟨s₂, h₂, h⟩ := Option.bind_eq_some_iff.1 h
  obtain ⟨⟨point, s₃⟩, h₃, h⟩ := Option.bind_eq_some_iff.1 h
  obtain ⟨s₄, h₄, h⟩ := Option.bind_eq_some_iff.1 h
  obtain ⟨⟨magnitude, s₅⟩, h₅, h⟩ := Option.bind_eq_some_iff.1 h
  obtain ⟨s₆, h₆, h⟩ := Option.bind_eq_some_iff.1 h
  obtain ⟨⟨angle, s₇⟩, h₇, h⟩ := Option.bind_eq_some_iff.1 h
  obtain ⟨s₈, h₈, h⟩ := Option.bind_eq_some_iff.1 h
  obtain ⟨⟨label, s₉⟩, h₉, h⟩ := Option.bind_eq_some_iff.1 h
  rcases hs₉ : optional? kind? s₉ with ⟨kind, s₁₀⟩
  simp only [hs₉] at h
  obtain ⟨s₁₁, h₁₁, h⟩ := Option.bind_eq_some_iff.1 h
  obtain ⟨rfl, rfl⟩ := Prod.mk.inj (Option.some.inj h)
  obtain rfl := char?_sound h₂
  obtain rfl := char?_sound h₄
  obtain rfl := char?_sound h₆
  obtain rfl := char?_sound h₈
  obtain rfl := char?_sound h₁₁
  obtain ⟨idText, hid, rfl, hid'⟩ := some?_stopsAt isIdentChar '@' h₁
  have hid : IsName idText := hid
  obtain ⟨pointText, hpoint, rfl, hpoint'⟩ := some?_stopsAt isIdentChar '(' h₃
  have hpoint : IsName pointText := hpoint
  obtain ⟨magnitudeText, hmagnitude, rfl, hmagnitude'⟩ := coordinate?_stopsAt (by decide) h₅
  obtain ⟨angleText, hangle, rfl, hangle'⟩ := coordinate?_stopsAt (by decide) h₇
  obtain ⟨kindText, hkind, rfl, hkind'⟩ :=
    optional?_stopsAt (kind?_stopsAt ')') (by decide) hs₉
  -- the label stops at the comma of a kind, or at the closing bracket
  have hlabel : ∃ labelText, (',' ∉ labelText ∧ ')' ∉ labelText) ∧
      s₈ = labelText ++ (kindText ++ ')' :: s₁₁) ∧
      ∀ more, label? (labelText ++ (kindText ++ ')' :: more)) =
        some (label, kindText ++ ')' :: more) := by
    rcases hkind with rfl | ⟨kind, -, rfl⟩
    · exact label?_stopsAt ')' h₉
    · obtain ⟨labelText, hlabel, hs₈, hlabel'⟩ := label?_stopsAt ',' h₉
      exact ⟨labelText, hlabel, hs₈, fun more => hlabel' _⟩
  obtain ⟨labelText, ⟨hcomma, hclosing⟩, rfl, hlabel'⟩ := hlabel
  have hlabel₀ : labelText.count ',' = 0 := List.count_eq_zero.2 hcomma
  refine ⟨idText ++ '@' :: pointText ++ '(' :: (magnitudeText ++ ',' :: (angleText ++ ',' ::
    (labelText ++ (kindText ++ [')'])))), ?_, ?_, fun more => ?_⟩
  · have hcount : 2 ≤ (magnitudeText ++ ',' :: (angleText ++ [','])).count ',' := by
      rw [count_comma_append, count_comma_append]
      omega
    have hword : IsSolid (idText ++ '@' :: pointText) := isSolid_joined hid hpoint (by decide)
    rcases hkind with rfl | ⟨kind, hkind, rfl⟩
    · have : Bracketed 2 (idText ++ '@' :: pointText ++ '(' ::
          (magnitudeText ++ ',' :: (angleText ++ [',']) ++ labelText ++ [')'])) :=
        bracketed_append hword (by simp [hmagnitude.opening, hangle.opening])
          (by simp [hid.closing, hpoint.closing, hmagnitude.closing, hangle.closing,
            hclosing]) hcount (by omega)
      simpa using this
    · have hkind₀ : (labelText ++ ',' :: kind).count ',' = 1 := by
        rw [count_comma_append, hlabel₀, List.count_eq_zero.2 hkind.comma]
      have : Bracketed 2 (idText ++ '@' :: pointText ++ '(' ::
          (magnitudeText ++ ',' :: (angleText ++ [',']) ++ (labelText ++ ',' :: kind) ++ [')'])) :=
        bracketed_append hword (by simp [hmagnitude.opening, hangle.opening])
          (by simp [hid.closing, hpoint.closing, hmagnitude.closing, hangle.closing,
            hclosing, hkind.closing]) hcount (by omega)
      simpa using this
  · simp only [List.append_assoc, List.cons_append, List.nil_append]
  · simp only [List.append_assoc, List.cons_append, List.nil_append, force?, ident?, hid', hpoint',
      Option.bind_eq_bind, Option.bind_some, char?_cons, hmagnitude', hangle', hlabel', hkind',
      Option.pure_def]

/-! ## Options -/

/-- The value of an option is all of the name that stands there. -/
theorem option?_solid {s rest : List Char} {t : OptionText} (h : option? s = some (t, rest)) :
    ∃ text, IsSolid text ∧ s = text ++ rest ∧
      ∀ more, (∀ c ∈ more.head?, isSpace c = true ∨ c ∈ rest.head?) →
        option? (text ++ more) = some (t, more) := by
  obtain ⟨⟨key, s₁⟩, h₁, h⟩ := Option.bind_eq_some_iff.1 h
  obtain ⟨s₂, h₂, h⟩ := Option.bind_eq_some_iff.1 h
  obtain ⟨⟨value, s₃⟩, h₃, h⟩ := Option.bind_eq_some_iff.1 h
  obtain ⟨rfl, rfl⟩ := Prod.mk.inj (Option.some.inj h)
  obtain rfl := char?_sound h₂
  obtain ⟨keyText, hkey, rfl, hkey'⟩ := some?_stopsAt isIdentChar '=' h₁
  obtain ⟨hvalue, rfl⟩ := ident?_sound h₃
  refine ⟨keyText ++ '=' :: value, isSolid_joined hkey hvalue (by decide), by simp,
    fun more hmore => ?_⟩
  have hvalue' : some? isIdentChar (value ++ more) = some (value, more) :=
    some?_append hvalue.1 hvalue.2
      (stops_of_head? isSpace_eq_false_of_isIdentChar (stops_of_some? h₃) hmore)
  simp only [List.append_assoc, List.cons_append, option?, ident?, hkey', Option.bind_eq_bind,
    Option.bind_some, char?_cons, hvalue', Option.pure_def]

end FreeBody.Compact
