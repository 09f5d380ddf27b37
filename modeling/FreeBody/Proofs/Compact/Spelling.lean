import FreeBody.Compact.Token
import FreeBody.Proofs.Text.Pieces

/-!
# How elements are written

What a reader of elements takes from the front of a text is an element as it is written, character
by character (`point?_sound`, `force?_sound`, `option?_sound`): names, numbers between separators,
labels, and the marks between them.
-/

namespace FreeBody.Compact

open Text (Spaces skipSpaces)

/-! ## Parts -/

/-- A name as it is written. -/
def IsName (text : List Char) : Prop := text ≠ [] ∧ ∀ c ∈ text, isIdentChar c = true

/-- A label as it is written. -/
def IsLabelText (text : List Char) : Prop := text ≠ [] ∧ ∀ c ∈ text, c ≠ ',' ∧ c ≠ ')'

/-- A part with separators around it. -/
def Spaced (part text : List Char) : Prop :=
  ∃ u v, Spaces u ∧ Spaces v ∧ text = u ++ (part ++ v)

/-- A label in its place. -/
def LabelPart (part text : List Char) : Prop := IsLabelText part ∧ text = part

/-- A kind in its place. -/
def KindPart (part text : List Char) : Prop := IsName part ∧ Spaced part text

/-- A part behind a comma, or nothing. -/
inductive Optionally (IsPart : List Char → List Char → Prop) :
    Option (List Char) → List Char → Prop
  | none : Optionally IsPart none []
  | some {part text : List Char} : IsPart part text → Optionally IsPart (some part) (',' :: text)

section

variable {p : Char → Bool} {s part rest : List Char} {c : Char}

theorem some?_eq_some (h : some? p s = some (part, rest)) :
    part ≠ [] ∧ (∀ c ∈ part, p c = true) ∧ s = part ++ rest := by
  unfold some? at h
  by_cases hnil : (s.takeWhile p).isEmpty = true
  · rw [if_pos hnil] at h
    cases h
  · rw [if_neg hnil] at h
    obtain ⟨rfl, rfl⟩ := Prod.mk.inj (Option.some.inj h)
    exact ⟨by rwa [List.isEmpty_iff] at hnil, List.all_eq_true.1 List.all_takeWhile,
      List.takeWhile_append_dropWhile.symm⟩

theorem ident?_sound (h : ident? s = some (part, rest)) : IsName part ∧ s = part ++ rest :=
  ⟨⟨(some?_eq_some h).1, (some?_eq_some h).2.1⟩, (some?_eq_some h).2.2⟩

theorem label?_sound (h : label? s = some (part, rest)) : IsLabelText part ∧ s = part ++ rest := by
  obtain ⟨hne, hall, hs⟩ := some?_eq_some h
  refine ⟨⟨hne, fun c hc => ?_⟩, hs⟩
  simpa using hall c hc

theorem label?_part (h : label? s = some (part, rest)) :
    ∃ text, LabelPart part text ∧ s = text ++ rest :=
  ⟨part, ⟨(label?_sound h).1, rfl⟩, (label?_sound h).2⟩

theorem char?_sound (h : char? c s = some rest) : s = c :: rest := by
  cases s with
  | nil => cases h
  | cons d t =>
    rw [char?] at h
    by_cases hd : d = c
    · rw [if_pos hd] at h
      rw [hd, Option.some.inj h]
    · rw [if_neg hd] at h
      cases h

theorem minus_append (s : List Char) : (minus s).1 ++ (minus s).2 = s := by
  unfold minus
  split <;> rfl

theorem places_append (s : List Char) : (places s).1 ++ (places s).2 = s := by
  unfold places
  split
  next =>
    split
    next h =>
      obtain ⟨-, -, rfl⟩ := some?_eq_some h
      rfl
    next => rfl
  next => rfl

theorem number?_sound (h : number? s = some (part, rest)) : s = part ++ rest := by
  obtain ⟨⟨whole, r⟩, hw, hr⟩ := Option.bind_eq_some_iff.1 h
  obtain ⟨rfl, rfl⟩ := Prod.mk.inj (Option.some.inj hr)
  obtain ⟨-, -, hwhole⟩ := some?_eq_some hw
  calc s = (minus s).1 ++ (minus s).2 := (minus_append s).symm
    _ = (minus s).1 ++ (whole ++ ((places r).1 ++ (places r).2)) := by
      rw [hwhole, places_append]
    _ = (minus s).1 ++ whole ++ (places r).1 ++ (places r).2 := by simp only [List.append_assoc]

/-- A part that is read behind separators stands between separators. -/
theorem exists_spaced (h : skipSpaces s = part ++ rest) :
    ∃ text, Spaced part text ∧ s = text ++ skipSpaces rest := by
  obtain ⟨u, hu, hs⟩ := Text.exists_skipSpaces s
  obtain ⟨v, hv, hrest⟩ := Text.exists_skipSpaces rest
  refine ⟨u ++ (part ++ v), ⟨u, v, hu, hv, rfl⟩, ?_⟩
  rw [List.append_assoc, List.append_assoc, ← hrest, ← h, ← hs]

theorem coordinate?_sound (h : coordinate? s = some (part, rest)) :
    ∃ text, Spaced part text ∧ s = text ++ rest := by
  obtain ⟨⟨n, r⟩, hn, hr⟩ := Option.bind_eq_some_iff.1 h
  obtain ⟨rfl, rfl⟩ := Prod.mk.inj (Option.some.inj hr)
  exact exists_spaced (number?_sound hn)

theorem kind?_part (h : kind? s = some (part, rest)) :
    ∃ text, KindPart part text ∧ s = text ++ rest := by
  obtain ⟨⟨n, r⟩, hn, hr⟩ := Option.bind_eq_some_iff.1 h
  obtain ⟨rfl, rfl⟩ := Prod.mk.inj (Option.some.inj hr)
  obtain ⟨hname, hs⟩ := ident?_sound hn
  obtain ⟨text, hspaced, htext⟩ := exists_spaced hs
  exact ⟨text, ⟨hname, hspaced⟩, htext⟩

theorem optional?_sound (part? : List Char → Option (List Char × List Char))
    {IsPart : List Char → List Char → Prop}
    (hpart : ∀ {s part rest : List Char}, part? s = some (part, rest) →
      ∃ text, IsPart part text ∧ s = text ++ rest) (s : List Char) :
    ∃ text, Optionally IsPart (optional? part? s).1 text ∧ s = text ++ (optional? part? s).2 := by
  unfold optional?
  split
  next more hcomma =>
    obtain rfl := char?_sound hcomma
    split
    next h =>
      obtain ⟨text, hwritten, rfl⟩ := hpart h
      exact ⟨',' :: text, .some hwritten, rfl⟩
    next => exact ⟨[], .none, rfl⟩
  next => exact ⟨[], .none, rfl⟩

end

/-! ## Elements -/

/-- How a point is written. -/
inductive PointText.IsWritten : PointText → List Char → Prop
  | mk {id x y xText yText labelText : List Char} {label : Option (List Char)} :
      IsName id → Spaced x xText → Spaced y yText →
      Optionally LabelPart label labelText →
      IsWritten ⟨id, x, y, label⟩
        (id ++ '(' :: (xText ++ ',' :: (yText ++ (labelText ++ [')']))))

/-- How a force is written. -/
inductive ForceText.IsWritten : ForceText → List Char → Prop
  | mk {id point magnitude angle label magnitudeText angleText kindText : List Char}
      {kind : Option (List Char)} :
      IsName id → IsName point → Spaced magnitude magnitudeText → Spaced angle angleText →
      IsLabelText label → Optionally KindPart kind kindText →
      IsWritten ⟨id, point, magnitude, angle, label, kind⟩
        (id ++ '@' :: (point ++ '(' :: (magnitudeText ++ ',' :: (angleText ++ ',' ::
          (label ++ (kindText ++ [')']))))))

/-- How an option is written. -/
inductive OptionText.IsWritten : OptionText → List Char → Prop
  | mk {key value : List Char} : IsName key → IsName value →
      IsWritten ⟨key, value⟩ (key ++ '=' :: value)

section

variable {s rest : List Char}

theorem point?_sound {t : PointText} (h : point? s = some (t, rest)) :
    ∃ text, t.IsWritten text ∧ s = text ++ rest := by
  obtain ⟨⟨id, s₁⟩, h₁, h⟩ := Option.bind_eq_some_iff.1 h
  obtain ⟨s₂, h₂, h⟩ := Option.bind_eq_some_iff.1 h
  obtain ⟨⟨x, s₃⟩, h₃, h⟩ := Option.bind_eq_some_iff.1 h
  obtain ⟨s₄, h₄, h⟩ := Option.bind_eq_some_iff.1 h
  obtain ⟨⟨y, s₅⟩, h₅, h⟩ := Option.bind_eq_some_iff.1 h
  obtain ⟨s₆, h₆, h⟩ := Option.bind_eq_some_iff.1 h
  obtain ⟨rfl, rfl⟩ := Prod.mk.inj (Option.some.inj h)
  obtain ⟨hid, rfl⟩ := ident?_sound h₁
  obtain rfl := char?_sound h₂
  obtain ⟨xText, hx, rfl⟩ := coordinate?_sound h₃
  obtain rfl := char?_sound h₄
  obtain ⟨yText, hy, rfl⟩ := coordinate?_sound h₅
  obtain ⟨labelText, hlabel, hs₅⟩ := optional?_sound label? label?_part s₅
  have hs₆ : (optional? label? s₅).2 = ')' :: s₆ := char?_sound h₆
  rw [hs₆] at hs₅
  refine ⟨_, .mk hid hx hy hlabel, ?_⟩
  conv => lhs; rw [hs₅]
  simp

theorem force?_sound {t : ForceText} (h : force? s = some (t, rest)) :
    ∃ text, t.IsWritten text ∧ s = text ++ rest := by
  obtain ⟨⟨id, s₁⟩, h₁, h⟩ := Option.bind_eq_some_iff.1 h
  obtain ⟨s₂, h₂, h⟩ := Option.bind_eq_some_iff.1 h
  obtain ⟨⟨point, s₃⟩, h₃, h⟩ := Option.bind_eq_some_iff.1 h
  obtain ⟨s₄, h₄, h⟩ := Option.bind_eq_some_iff.1 h
  obtain ⟨⟨magnitude, s₅⟩, h₅, h⟩ := Option.bind_eq_some_iff.1 h
  obtain ⟨s₆, h₆, h⟩ := Option.bind_eq_some_iff.1 h
  obtain ⟨⟨angle, s₇⟩, h₇, h⟩ := Option.bind_eq_some_iff.1 h
  obtain ⟨s₈, h₈, h⟩ := Option.bind_eq_some_iff.1 h
  obtain ⟨⟨label, s₉⟩, h₉, h⟩ := Option.bind_eq_some_iff.1 h
  obtain ⟨s₁₀, h₁₀, h⟩ := Option.bind_eq_some_iff.1 h
  obtain ⟨rfl, rfl⟩ := Prod.mk.inj (Option.some.inj h)
  obtain ⟨hid, rfl⟩ := ident?_sound h₁
  obtain rfl := char?_sound h₂
  obtain ⟨hpoint, rfl⟩ := ident?_sound h₃
  obtain rfl := char?_sound h₄
  obtain ⟨magnitudeText, hmagnitude, rfl⟩ := coordinate?_sound h₅
  obtain rfl := char?_sound h₆
  obtain ⟨angleText, hangle, rfl⟩ := coordinate?_sound h₇
  obtain rfl := char?_sound h₈
  obtain ⟨hlabel, rfl⟩ := label?_sound h₉
  obtain ⟨kindText, hkind, hs₉⟩ := optional?_sound kind? kind?_part s₉
  have hs₁₀ : (optional? kind? s₉).2 = ')' :: s₁₀ := char?_sound h₁₀
  rw [hs₁₀] at hs₉
  refine ⟨_, .mk hid hpoint hmagnitude hangle hlabel hkind, ?_⟩
  conv => lhs; rw [hs₉]
  simp

theorem option?_sound {t : OptionText} (h : option? s = some (t, rest)) :
    ∃ text, t.IsWritten text ∧ s = text ++ rest := by
  obtain ⟨⟨key, s₁⟩, h₁, h⟩ := Option.bind_eq_some_iff.1 h
  obtain ⟨s₂, h₂, h⟩ := Option.bind_eq_some_iff.1 h
  obtain ⟨⟨value, s₃⟩, h₃, h⟩ := Option.bind_eq_some_iff.1 h
  obtain ⟨rfl, rfl⟩ := Prod.mk.inj (Option.some.inj h)
  obtain ⟨hkey, rfl⟩ := ident?_sound h₁
  obtain rfl := char?_sound h₂
  obtain ⟨hvalue, rfl⟩ := ident?_sound h₃
  exact ⟨_, .mk hkey hvalue, by simp⟩

end

end FreeBody.Compact
