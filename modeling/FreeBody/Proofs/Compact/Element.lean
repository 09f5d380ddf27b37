import FreeBody.Compact.Sections
import FreeBody.Compact.Writer
import FreeBody.Proofs.Decimal.ReadBack

/-!
# Elements read back

An element ends at its own last character, so what is written behind it does not matter: a written
point or force is read from the front of any longer text (`point?_writePoint`,
`force?_writeForce`).  A number that is not finite is written as a word and a force without a label
leaves an empty place; neither can be read (`point?_writePoint_none`, `force?_writeForce_none`).
-/

namespace FreeBody

open Text (Stops)

/-! ## What can be written -/

/-- Whether `s` is a name. -/
structure Compact.IsWord (s : String) : Prop where
  ne_nil : s.toList ≠ []
  ident : ∀ c ∈ s.toList, isIdentChar c = true

instance Compact.decidableIsWord (s : String) : Decidable (IsWord s) :=
  decidable_of_iff (s.toList ≠ [] ∧ s.toList.all isIdentChar = true)
    ⟨fun h => ⟨h.1, List.all_eq_true.1 h.2⟩, fun h => ⟨h.ne_nil, List.all_eq_true.2 h.ident⟩⟩

/-- Whether `s` has no blanks at its ends and no character that ends a label or a section. -/
structure Compact.IsLabel (s : String) : Prop where
  trimmed : Text.trim s.toList = s.toList
  inner : ∀ c ∈ s.toList, c ≠ ',' ∧ c ≠ ')' ∧ c ≠ '|'

instance Compact.decidableIsLabel (s : String) : Decidable (IsLabel s) :=
  decidable_of_iff
    (Text.trim s.toList = s.toList ∧ s.toList.all fun c => c ≠ ',' ∧ c ≠ ')' ∧ c ≠ '|')
    ⟨fun h => ⟨h.1, fun c hc => of_decide_eq_true (List.all_eq_true.1 h.2 c hc)⟩,
      fun h => ⟨h.trimmed, List.all_eq_true.2 fun c hc => decide_eq_true (h.inner c hc)⟩⟩

/-- What the custom form has a place for in a point. -/
structure Point.Expressible (p : Point) : Prop where
  id : Compact.IsWord p.id
  label : ∀ l ∈ p.label, l ≠ "" ∧ Compact.IsLabel l
  kind : p.kind = .free

/-- What the custom form has a place for in a force. -/
structure Force.Expressible (f : Force) : Prop where
  id : Compact.IsWord f.id
  point : Compact.IsWord f.point
  label : Compact.IsLabel f.label
  color : f.color = none
  units : f.units = none

/-- Whether a point is still a point when it is written. -/
structure Point.Legible (p : Point) : Prop where
  x : p.x.isFinite = true
  y : p.y.isFinite = true

/-- Whether a force is still a force when it is written. -/
structure Force.Legible (f : Force) : Prop where
  magnitude : f.magnitude.isFinite = true
  angle : f.angle.isFinite = true
  label : f.label ≠ ""

namespace Compact

/-! ## Parts -/

section

variable {p : Char → Bool} {s rest : List Char}

theorem some?_append (hne : s ≠ []) (hs : ∀ c ∈ s, p c = true) (h : Stops p rest) :
    some? p (s ++ rest) = some (s, rest) := by
  unfold some?
  rw [Text.takeWhile_append_of_stops hs h, Text.dropWhile_append_of_stops hs h,
    if_neg (by rwa [List.isEmpty_iff])]

theorem some?_of_stops (h : Stops p rest) : some? p rest = none := by
  unfold some?
  rw [Text.takeWhile_of_stops h]
  rfl

theorem char?_cons (c : Char) (rest : List Char) : char? c (c :: rest) = some rest := by
  rw [char?, if_pos rfl]

theorem char?_cons_ne {c d : Char} (h : d ≠ c) (rest : List Char) :
    char? c (d :: rest) = none := by
  rw [char?, if_neg h]

theorem ident?_append {w : String} (hw : IsWord w) {c : Char} (hc : isIdentChar c = false)
    (rest : List Char) : ident? (w.toList ++ c :: rest) = some (w.toList, c :: rest) :=
  some?_append hw.ne_nil hw.ident (Text.stops_cons_iff.2 hc)

theorem label?_append {l : String} (hne : l ≠ "") (hl : IsLabel l) {c : Char}
    (hc : c = ',' ∨ c = ')') (rest : List Char) :
    label? (l.toList ++ c :: rest) = some (l.toList, c :: rest) := by
  refine some?_append (fun h => hne (String.toList_eq_nil_iff.1 h)) ?_ ?_
  · intro d hd
    obtain ⟨h1, h2, -⟩ := hl.inner d hd
    simp [h1, h2]
  · rw [Text.stops_cons_iff]
    rcases hc with rfl | rfl <;> rfl

end

/-! ## Numbers -/

theorem minus_sign_append {c : Char} (hc : Decimal.isDigit c = true) (negative : Bool)
    (rest : List Char) :
    minus (Decimal.sign negative ++ c :: rest) = (Decimal.sign negative, c :: rest) := by
  cases negative
  · show minus (c :: rest) = _
    unfold minus
    split
    next h => exact absurd (List.cons.inj h).1 (Decimal.isDigit_ne hc (by decide))
    next => rfl
  · rfl

theorem places_point_append {places rest : List Char}
    (hp : ∀ c ∈ places, Decimal.isDigit c = true) (h : Stops Decimal.isDigit rest)
    (hdot : Stops (· == '.') rest) :
    Compact.places (Decimal.point places ++ rest) = (Decimal.point places, rest) := by
  unfold Decimal.point
  by_cases hne : places = []
  · rw [if_pos hne, List.nil_append]
    unfold Compact.places
    split
    next => exact absurd (Text.stops_cons_iff.1 hdot) (by decide)
    next => rfl
  · rw [if_neg hne]
    unfold Compact.places
    simp only [List.cons_append]
    rw [some?_append hne hp h]

/-- The number at the front of a text is all of it that can belong to one. -/
theorem number?_numeral {whole places : List Char} (hne : whole ≠ [])
    (hw : ∀ c ∈ whole, Decimal.isDigit c = true) (hp : ∀ c ∈ places, Decimal.isDigit c = true)
    (negative : Bool) {rest : List Char} (h : Stops Decimal.isDigit rest)
    (hdot : Stops (· == '.') rest) :
    number? (Decimal.sign negative ++ whole ++ Decimal.point places ++ rest) =
      some (Decimal.sign negative ++ whole ++ Decimal.point places, rest) := by
  have hminus (more : List Char) : minus (Decimal.sign negative ++ (whole ++ more)) =
      (Decimal.sign negative, whole ++ more) := by
    obtain ⟨c, cs, rfl⟩ := List.exists_cons_of_ne_nil hne
    exact minus_sign_append (hw c List.mem_cons_self) negative _
  have hstops : Stops Decimal.isDigit (Decimal.point places ++ rest) := by
    unfold Decimal.point
    split_ifs
    · exact h
    · exact Text.stops_cons_iff.2 (by decide)
  rw [List.append_assoc, List.append_assoc]
  unfold number?
  simp only [hminus, some?_append hne hw hstops, places_point_append hp h hdot,
    Option.bind_eq_bind, Option.bind_some, Option.pure_def, List.append_assoc]

theorem number?_plain {x : Float} (hx : x.isFinite = true) {rest : List Char}
    (h : Stops Decimal.isDigit rest) (hdot : Stops (· == '.') rest) :
    number? ((Decimal.plain x).toList ++ rest) = some ((Decimal.plain x).toList, rest) := by
  obtain ⟨negative, mantissa, exponent, hparts⟩ := Decimal.isFinite_iff.1 hx
  obtain ⟨whole, places, hne, hw, hp, htext, -⟩ := Decimal.plain_eq_numeral hparts
  rw [htext, ← List.append_assoc]
  exact number?_numeral hne hw hp negative h hdot

theorem stops_isSpace_plain (x : Float) (rest : List Char) :
    Stops Text.isSpace ((Decimal.plain x).toList ++ rest) := by
  rcases hx : x.isFinite with _ | _
  · rcases Decimal.plain_of_not_finite hx with h | h | h <;> rw [h] <;>
      exact Text.stops_cons_iff.2 (by decide)
  · obtain ⟨negative, mantissa, exponent, hparts⟩ := Decimal.isFinite_iff.1 hx
    obtain ⟨whole, places, hne, hw, hp, htext, -⟩ := Decimal.plain_eq_numeral hparts
    obtain ⟨c, cs, rfl⟩ := List.exists_cons_of_ne_nil hne
    rw [htext]
    cases negative
    · exact Text.stops_cons_iff.2 (Decimal.isSpace_eq_false_of_isDigit (hw c List.mem_cons_self))
    · exact Text.stops_cons_iff.2 (by decide)

/-- What is written for a double that is not finite begins with no number. -/
theorem number?_plain_none {x : Float} (hx : x.isFinite = false) (rest : List Char) :
    number? ((Decimal.plain x).toList ++ rest) = none := by
  rcases Decimal.plain_of_not_finite hx with h | h | h <;> rw [h] <;> rfl

/-- What may follow a number: no digit, point or separator. -/
structure EndsNumber (rest : List Char) : Prop where
  digit : Stops Decimal.isDigit rest
  point : Stops (· == '.') rest
  space : Stops Text.isSpace rest

theorem endsNumber_comma (rest : List Char) : EndsNumber (',' :: rest) where
  digit := Text.stops_cons_iff.2 (by decide)
  point := Text.stops_cons_iff.2 (by decide)
  space := Text.stops_cons_iff.2 (by decide)

theorem endsNumber_paren (rest : List Char) : EndsNumber (')' :: rest) where
  digit := Text.stops_cons_iff.2 (by decide)
  point := Text.stops_cons_iff.2 (by decide)
  space := Text.stops_cons_iff.2 (by decide)

theorem coordinate?_plain {x : Float} (hx : x.isFinite = true) {rest : List Char}
    (h : EndsNumber rest) :
    coordinate? ((Decimal.plain x).toList ++ rest) = some ((Decimal.plain x).toList, rest) := by
  unfold coordinate?
  rw [Text.skipSpaces_of_stops (stops_isSpace_plain x rest), number?_plain hx h.digit h.point]
  simp only [Option.bind_eq_bind, Option.bind_some, Option.pure_def,
    Text.skipSpaces_of_stops h.space]

theorem coordinate?_plain_none {x : Float} (hx : x.isFinite = false) (rest : List Char) :
    coordinate? ((Decimal.plain x).toList ++ rest) = none := by
  unfold coordinate?
  rw [Text.skipSpaces_of_stops (stops_isSpace_plain x rest), number?_plain_none hx]
  rfl

/-! ## Points -/

/-- An optional part as it is written. -/
def optionalText (part : Option String) : List Char := part.elim [] fun s => ',' :: s.toList

theorem toList_intercalate_comma (first : String) (others : List String) :
    (String.intercalate "," (first :: others)).toList =
      first.toList ++ others.flatMap fun s => ',' :: s.toList := by
  simp [Text.intercalate_cons, List.flatMap_map]

theorem toList_call (name first : String) (others : List String) :
    (call name (first :: others)).toList =
      name.toList ++
        '(' :: (first.toList ++ ((others.flatMap fun s => ',' :: s.toList) ++ [')'])) := by
  unfold call
  rw [String.toList_append, String.toList_append, String.toList_append, toList_intercalate_comma,
    List.append_assoc, List.append_assoc, List.append_assoc]
  rfl

theorem call_ne_nil (name : String) (parts : List String) : (call name parts).toList ≠ [] := by
  unfold call
  rw [String.toList_append]
  exact List.append_ne_nil_of_right_ne_nil _ (by decide)

theorem toList_writePoint (p : Point) (rest : List Char) :
    (writePoint p).toList ++ rest = p.id.toList ++ '(' :: ((Decimal.plain p.x).toList ++
      ',' :: ((Decimal.plain p.y).toList ++ (optionalText p.label ++ ')' :: rest))) := by
  unfold writePoint
  rw [List.cons_append, toList_call]
  cases p.label <;> simp [optionalText]

theorem toList_writeForce (f : Force) (rest : List Char) :
    (writeForce f).toList ++ rest = f.id.toList ++ '@' :: (f.point.toList ++ '(' ::
      ((Decimal.plain f.magnitude).toList ++ ',' :: ((Decimal.plain f.angle).toList ++
        ',' :: (f.label.toList ++ (optionalText (f.kind.map Keyword.word) ++ ')' :: rest))))) := by
  unfold writeForce
  rw [List.cons_append, toList_call]
  cases f.kind <;> simp [optionalText]

/-- The parts of a point as they are written. -/
def pointText (p : Point) : PointText :=
  ⟨p.id.toList, (Decimal.plain p.x).toList, (Decimal.plain p.y).toList, p.label.map String.toList⟩

theorem optional?_label? {label : Option String} (h : ∀ l ∈ label, l ≠ "" ∧ IsLabel l)
    (rest : List Char) :
    optional? label? (optionalText label ++ ')' :: rest) =
      (label.map String.toList, ')' :: rest) := by
  cases label with
  | none =>
    show optional? label? (')' :: rest) = (none, ')' :: rest)
    unfold optional?
    rw [char?_cons_ne (by decide)]
  | some l =>
    obtain ⟨hne, hl⟩ := h l rfl
    show optional? label? (',' :: (l.toList ++ ')' :: rest)) = (some l.toList, ')' :: rest)
    unfold optional?
    rw [char?_cons]
    simp only [label?_append hne hl (Or.inr rfl)]

theorem point?_writePoint {p : Point} (he : p.Expressible) (hl : p.Legible) (rest : List Char) :
    point? ((writePoint p).toList ++ rest) = some (pointText p, rest) := by
  have hparen : isIdentChar '(' = false := by decide
  rw [toList_writePoint]
  unfold point?
  simp only [ident?_append he.id hparen, char?_cons, coordinate?_plain hl.x (endsNumber_comma _),
    Option.bind_eq_bind, Option.bind_some]
  have hy : EndsNumber (optionalText p.label ++ ')' :: rest) := by
    cases p.label
    · exact endsNumber_paren rest
    · exact endsNumber_comma _
  simp only [coordinate?_plain hl.y hy, Option.bind_some, optional?_label? he.label, char?_cons]
  rfl

/-- A point away from the finite plane is no point when it is written. -/
theorem point?_writePoint_none {p : Point} (he : p.Expressible) (hl : ¬p.Legible)
    (rest : List Char) : point? ((writePoint p).toList ++ rest) = none := by
  have hparen : isIdentChar '(' = false := by decide
  rw [toList_writePoint]
  unfold point?
  simp only [ident?_append he.id hparen, char?_cons, Option.bind_eq_bind, Option.bind_some]
  rcases hx : p.x.isFinite with _ | _
  · rw [coordinate?_plain_none hx]
    rfl
  · have hy : p.y.isFinite = false := by
      rw [Bool.eq_false_iff]
      exact fun hy => hl ⟨hx, hy⟩
    simp only [coordinate?_plain hx (endsNumber_comma _), char?_cons, Option.bind_some,
      coordinate?_plain_none hy]
    rfl

theorem pointText_point? {p : Point} (he : p.Expressible) (hl : p.Legible) :
    (pointText p).point? = some p := by
  have hlabel : ((p.label.map String.toList).map Text.trim).filter (!·.isEmpty) =
      p.label.map String.toList := by
    rcases h : p.label with _ | l
    · rfl
    · obtain ⟨hne, hl⟩ := he.label l h
      have : l.toList.isEmpty = false := by
        rw [List.isEmpty_eq_false_iff]
        exact fun h => hne (String.toList_eq_nil_iff.1 h)
      simp [hl.trimmed, this]
  unfold PointText.point? pointText
  simp only [Decimal.read?_plain hl.x, Decimal.read?_plain hl.y, hlabel, Option.bind_eq_bind,
    Option.bind_some, Option.pure_def, String.ofList_toList]
  have hid : String.ofList ∘ String.toList = id := funext fun s => String.ofList_toList
  rw [Option.map_map, hid, Option.map_id, id, ← he.kind]

/-! ## Forces -/

/-- The parts of a force as they are written. -/
def forceText (f : Force) : ForceText :=
  ⟨f.id.toList, f.point.toList, (Decimal.plain f.magnitude).toList,
    (Decimal.plain f.angle).toList, f.label.toList,
    f.kind.map fun k => (Keyword.word k).toList⟩

theorem isSpace_eq_false_of_isIdentChar {c : Char} (h : isIdentChar c = true) :
    Text.isSpace c = false := by
  rw [Bool.eq_false_iff]
  intro hs
  simp only [Text.isSpace, Bool.or_eq_true, beq_iff_eq] at hs
  rcases hs with ((rfl | rfl) | rfl) | rfl <;> exact absurd h (by decide)

theorem stops_isSpace_word {w : String} (hw : IsWord w) (rest : List Char) :
    Stops Text.isSpace (w.toList ++ rest) := by
  obtain ⟨c, cs, h⟩ := List.exists_cons_of_ne_nil hw.ne_nil
  have hc := hw.ident c (by rw [h]; exact List.mem_cons_self)
  rw [h]
  exact Text.stops_cons_iff.2 (isSpace_eq_false_of_isIdentChar hc)

theorem isWord_word (k : ForceKind) : IsWord (Keyword.word k) := by
  cases k <;> decide

theorem optional?_kind? (kind : Option ForceKind) (rest : List Char) :
    optional? kind? (optionalText (kind.map Keyword.word) ++ ')' :: rest) =
      (kind.map fun k => (Keyword.word k).toList, ')' :: rest) := by
  cases kind with
  | none =>
    show optional? kind? (')' :: rest) = (none, ')' :: rest)
    unfold optional?
    rw [char?_cons_ne (by decide)]
  | some k =>
    show optional? kind? (',' :: ((Keyword.word k).toList ++ ')' :: rest)) =
      (some (Keyword.word k).toList, ')' :: rest)
    have hk : kind? ((Keyword.word k).toList ++ ')' :: rest) =
        some ((Keyword.word k).toList, ')' :: rest) := by
      have hspace : Stops Text.isSpace (')' :: rest) := Text.stops_cons_iff.2 (by decide)
      unfold kind?
      rw [Text.skipSpaces_of_stops (stops_isSpace_word (isWord_word k) _),
        ident?_append (isWord_word k) (by decide)]
      simp only [Option.bind_eq_bind, Option.bind_some, Option.pure_def,
        Text.skipSpaces_of_stops hspace]
    unfold optional?
    rw [char?_cons]
    simp only [hk]

theorem force?_writeForce {f : Force} (he : f.Expressible) (hl : f.Legible) (rest : List Char) :
    force? ((writeForce f).toList ++ rest) = some (forceText f, rest) := by
  have hparen : isIdentChar '(' = false := by decide
  have hat : isIdentChar '@' = false := by decide
  rw [toList_writeForce]
  unfold force?
  simp only [ident?_append he.id hat, ident?_append he.point hparen, char?_cons,
    coordinate?_plain hl.magnitude (endsNumber_comma _),
    coordinate?_plain hl.angle (endsNumber_comma _), Option.bind_eq_bind, Option.bind_some]
  have hlabel : label? (f.label.toList ++ (optionalText (f.kind.map Keyword.word) ++
      ')' :: rest)) = some (f.label.toList, optionalText (f.kind.map Keyword.word) ++
      ')' :: rest) := by
    cases f.kind
    · exact label?_append hl.label he.label (Or.inr rfl) _
    · exact label?_append hl.label he.label (Or.inl rfl) _
  simp only [hlabel, Option.bind_some, optional?_kind?, char?_cons]
  rfl

/-- A force away from the finite plane or without a label is no force when it is written. -/
theorem force?_writeForce_none {f : Force} (he : f.Expressible) (hl : ¬f.Legible)
    (rest : List Char) : force? ((writeForce f).toList ++ rest) = none := by
  have hparen : isIdentChar '(' = false := by decide
  have hat : isIdentChar '@' = false := by decide
  rw [toList_writeForce]
  unfold force?
  simp only [ident?_append he.id hat, ident?_append he.point hparen, char?_cons,
    Option.bind_eq_bind, Option.bind_some]
  rcases hm : f.magnitude.isFinite with _ | _
  · rw [coordinate?_plain_none hm]
    rfl
  · simp only [coordinate?_plain hm (endsNumber_comma _), char?_cons, Option.bind_some]
    rcases ha : f.angle.isFinite with _ | _
    · rw [coordinate?_plain_none ha]
      rfl
    · have hempty : f.label.toList = [] := by
        by_contra hne
        exact hl ⟨hm, ha, fun h => hne (String.toList_eq_nil_iff.2 h)⟩
      have hlabel : label? (f.label.toList ++ (optionalText (f.kind.map Keyword.word) ++
          ')' :: rest)) = none := by
        rw [hempty]
        cases f.kind <;> exact some?_of_stops (Text.stops_cons_iff.2 rfl)
      simp only [coordinate?_plain ha (endsNumber_comma _), char?_cons, Option.bind_some, hlabel]
      rfl

/-- Kinds are written in lower case. -/
theorem read_word (k : ForceKind) : Keyword.read (Keyword.word k) = .ok k := by
  have hlower : (Keyword.word k).map Char.toLower = Keyword.word k := by
    apply String.toList_injective
    rw [String.toList_map]
    cases k <;> decide
  have hword : Keyword.ofWord? (Keyword.word k) = some k := by
    cases k <;> decide
  unfold Keyword.read
  rw [hlower, hword]

theorem forceText_force? {f : Force} (he : f.Expressible) (hl : f.Legible) :
    (forceText f).force? = some (f, []) := by
  unfold ForceText.force? forceText
  simp only [Decimal.read?_plain hl.magnitude, Decimal.read?_plain hl.angle, he.label.trimmed,
    Option.bind_eq_bind, Option.bind_some, Option.pure_def, String.ofList_toList]
  rcases f with ⟨id, point, magnitude, angle, label, kind, color, units⟩
  obtain rfl : color = none := he.color
  obtain rfl : units = none := he.units
  cases kind with
  | none => rfl
  | some k =>
    simp only [Option.map_some, String.ofList_toList, read_word]
    rfl

end Compact

end FreeBody
