import FreeBody.Decimal.Text
import FreeBody.Markup.Scope
import FreeBody.Text.Blank

/-!
# Tokens of a section

A section of a compact text is a run of elements.  Each token begins at a character that is no
separator: the element that can be read there, or else the whole word up to the next separator,
which is then no element.  Elements may follow each other without a separator.

Every reader here gives back what it leaves of the text, and the readers of elements leave less
than they are given (`Scanner.shortens`).
-/

namespace FreeBody.Compact

open Text (isSpace skipSpaces)

/-! ## Parts of elements -/

/-- Whether `c` may stand in the name of a point, force or option. -/
def isIdentChar (c : Char) : Bool :=
  Markup.isAsciiDigit c || Markup.isAsciiLetter c || c == '_'

/-- The longest part of `s` at its front with the property `p`, unless it is empty. -/
def some? (p : Char → Bool) (s : List Char) : Option (List Char × List Char) :=
  if (s.takeWhile p).isEmpty then none else some (s.takeWhile p, s.dropWhile p)

/-- A name. -/
def ident? (s : List Char) : Option (List Char × List Char) := some? isIdentChar s

/-- The rest of `s` behind the character `c`. -/
def char? (c : Char) : List Char → Option (List Char)
  | d :: rest => if d = c then some rest else none
  | [] => none

/-- The places of a number, with their point, if they follow. -/
def places (s : List Char) : List Char × List Char :=
  match s with
  | '.' :: rest =>
    match some? Decimal.isDigit rest with
    | some (ds, after) => ('.' :: ds, after)
    | none => ([], s)
  | _ => ([], s)

/-- The minus at the front of `s`, if there is one. -/
def minus (s : List Char) : List Char × List Char :=
  match s with
  | '-' :: rest => (['-'], rest)
  | _ => ([], s)

/-- A number: an optional minus, digits, and optional places. -/
def number? (s : List Char) : Option (List Char × List Char) := do
  let (whole, rest) ← some? Decimal.isDigit (minus s).2
  pure ((minus s).1 ++ whole ++ (places rest).1, (places rest).2)

/-- A number with separators around it. -/
def coordinate? (s : List Char) : Option (List Char × List Char) := do
  let (n, rest) ← number? (skipSpaces s)
  pure (n, skipSpaces rest)

/-- A label; it ends at a comma or a closing parenthesis. -/
def label? (s : List Char) : Option (List Char × List Char) :=
  some? (fun c => c != ',' && c != ')') s

/-- An optional part behind a comma. -/
def optional? (part? : List Char → Option (List Char × List Char)) (s : List Char) :
    Option (List Char) × List Char :=
  match char? ',' s with
  | some rest =>
    match part? rest with
    | some (text, after) => (some text, after)
    | none => (none, s)
  | none => (none, s)

/-! ## Elements -/

/-- A point as it is written. -/
structure PointText where
  id : List Char
  x : List Char
  y : List Char
  label : Option (List Char)

/-- A point: `id(x, y)` or `id(x, y, label)`. -/
def point? (s : List Char) : Option (PointText × List Char) := do
  let (id, s) ← ident? s
  let s ← char? '(' s
  let (x, s) ← coordinate? s
  let s ← char? ',' s
  let (y, s) ← coordinate? s
  let (label, s) := optional? label? s
  let s ← char? ')' s
  pure (⟨id, x, y, label⟩, s)

/-- A force as it is written. -/
structure ForceText where
  id : List Char
  point : List Char
  magnitude : List Char
  angle : List Char
  label : List Char
  kind : Option (List Char)

/-- The kind of a force, with separators around it. -/
def kind? (s : List Char) : Option (List Char × List Char) := do
  let (kind, rest) ← ident? (skipSpaces s)
  pure (kind, skipSpaces rest)

/-- A force: `id@point(magnitude, angle, label)`, or with a kind behind the label. -/
def force? (s : List Char) : Option (ForceText × List Char) := do
  let (id, s) ← ident? s
  let s ← char? '@' s
  let (point, s) ← ident? s
  let s ← char? '(' s
  let (magnitude, s) ← coordinate? s
  let s ← char? ',' s
  let (angle, s) ← coordinate? s
  let s ← char? ',' s
  let (label, s) ← label? s
  let (kind, s) := optional? kind? s
  let s ← char? ')' s
  pure (⟨id, point, magnitude, angle, label, kind⟩, s)

/-- An option as it is written. -/
structure OptionText where
  key : List Char
  value : List Char

/-- An option: `key=value`. -/
def option? (s : List Char) : Option (OptionText × List Char) := do
  let (key, s) ← ident? s
  let s ← char? '=' s
  let (value, s) ← ident? s
  pure (⟨key, value⟩, s)

/-! ## What is left -/

theorem some?_length {p : Char → Bool} {s text rest : List Char}
    (h : some? p s = some (text, rest)) : rest.length < s.length := by
  simp only [some?] at h
  split at h
  · simp at h
  · next hne =>
    obtain ⟨rfl, rfl⟩ := Prod.mk.inj (Option.some.inj h)
    have e := congrArg List.length (List.takeWhile_append_dropWhile (p := p) (l := s))
    have : 0 < (s.takeWhile p).length := List.length_pos_iff.2 (by simpa using hne)
    simp only [List.length_append] at e
    omega

theorem char?_length {c : Char} {s rest : List Char} (h : char? c s = some rest) :
    rest.length < s.length := by
  cases s with
  | nil => simp [char?] at h
  | cons d t =>
    simp only [char?] at h
    split at h
    · obtain rfl := Option.some.inj h
      simp
    · simp at h

theorem places_length (s : List Char) : (places s).2.length ≤ s.length := by
  unfold places
  split
  next rest =>
    split
    next h => exact Nat.le_of_lt (Nat.lt_succ_of_lt (some?_length h))
    next => exact Nat.le_refl _
  next => exact Nat.le_refl _

theorem minus_length (s : List Char) : (minus s).2.length ≤ s.length := by
  unfold minus
  split
  next rest => exact Nat.le_succ _
  next => exact Nat.le_refl _

theorem number?_length {s text rest : List Char} (h : number? s = some (text, rest)) :
    rest.length < s.length := by
  obtain ⟨⟨whole, r⟩, hw, hr⟩ := Option.bind_eq_some_iff.1 h
  obtain ⟨-, rfl⟩ := Prod.mk.inj (Option.some.inj hr)
  have := some?_length hw
  have := minus_length s
  have := places_length r
  omega

theorem coordinate?_length {s text rest : List Char} (h : coordinate? s = some (text, rest)) :
    rest.length < s.length := by
  obtain ⟨⟨n, r⟩, hn, hr⟩ := Option.bind_eq_some_iff.1 h
  obtain ⟨-, rfl⟩ := Prod.mk.inj (Option.some.inj hr)
  have := number?_length hn
  have := Text.skipSpaces_length_le s
  have := Text.skipSpaces_length_le r
  omega

theorem kind?_length {s text rest : List Char} (h : kind? s = some (text, rest)) :
    rest.length < s.length := by
  obtain ⟨⟨n, r⟩, hn, hr⟩ := Option.bind_eq_some_iff.1 h
  obtain ⟨-, rfl⟩ := Prod.mk.inj (Option.some.inj hr)
  have := some?_length hn
  have := Text.skipSpaces_length_le s
  have := Text.skipSpaces_length_le r
  omega

theorem optional?_length {part? : List Char → Option (List Char × List Char)}
    (hp : ∀ s text rest, part? s = some (text, rest) → rest.length < s.length) (s : List Char) :
    (optional? part? s).2.length ≤ s.length := by
  unfold optional?
  split
  next rest h =>
    have := char?_length h
    split
    next text after ha =>
      have := hp _ _ _ ha
      show after.length ≤ s.length
      omega
    next => exact Nat.le_refl _
  next => exact Nat.le_refl _

theorem point?_length {s rest : List Char} {p : PointText} (h : point? s = some (p, rest)) :
    rest.length < s.length := by
  obtain ⟨⟨_, s₁⟩, h₁, h⟩ := Option.bind_eq_some_iff.1 h
  obtain ⟨s₂, h₂, h⟩ := Option.bind_eq_some_iff.1 h
  obtain ⟨⟨_, s₃⟩, h₃, h⟩ := Option.bind_eq_some_iff.1 h
  obtain ⟨s₄, h₄, h⟩ := Option.bind_eq_some_iff.1 h
  obtain ⟨⟨_, s₅⟩, h₅, h⟩ := Option.bind_eq_some_iff.1 h
  obtain ⟨s₆, h₆, h⟩ := Option.bind_eq_some_iff.1 h
  obtain ⟨-, rfl⟩ := Prod.mk.inj (Option.some.inj h)
  have := some?_length h₁
  have := char?_length h₂
  have := coordinate?_length h₃
  have := char?_length h₄
  have := coordinate?_length h₅
  have : (optional? label? s₅).2.length ≤ s₅.length :=
    optional?_length (fun _ _ _ => some?_length) s₅
  have := char?_length (s := (optional? label? s₅).2) h₆
  simp only at *
  omega

theorem force?_length {s rest : List Char} {f : ForceText} (h : force? s = some (f, rest)) :
    rest.length < s.length := by
  obtain ⟨⟨_, s₁⟩, h₁, h⟩ := Option.bind_eq_some_iff.1 h
  obtain ⟨s₂, h₂, h⟩ := Option.bind_eq_some_iff.1 h
  obtain ⟨⟨_, s₃⟩, h₃, h⟩ := Option.bind_eq_some_iff.1 h
  obtain ⟨s₄, h₄, h⟩ := Option.bind_eq_some_iff.1 h
  obtain ⟨⟨_, s₅⟩, h₅, h⟩ := Option.bind_eq_some_iff.1 h
  obtain ⟨s₆, h₆, h⟩ := Option.bind_eq_some_iff.1 h
  obtain ⟨⟨_, s₇⟩, h₇, h⟩ := Option.bind_eq_some_iff.1 h
  obtain ⟨s₈, h₈, h⟩ := Option.bind_eq_some_iff.1 h
  obtain ⟨⟨_, s₉⟩, h₉, h⟩ := Option.bind_eq_some_iff.1 h
  obtain ⟨s₁₀, h₁₀, h⟩ := Option.bind_eq_some_iff.1 h
  obtain ⟨-, rfl⟩ := Prod.mk.inj (Option.some.inj h)
  have := some?_length h₁
  have := char?_length h₂
  have := some?_length h₃
  have := char?_length h₄
  have := coordinate?_length h₅
  have := char?_length h₆
  have := coordinate?_length h₇
  have := char?_length h₈
  have := some?_length h₉
  have : (optional? kind? s₉).2.length ≤ s₉.length :=
    optional?_length (fun _ _ _ => kind?_length) s₉
  have := char?_length (s := (optional? kind? s₉).2) h₁₀
  simp only at *
  omega

theorem option?_length {s rest : List Char} {o : OptionText} (h : option? s = some (o, rest)) :
    rest.length < s.length := by
  obtain ⟨⟨_, s₁⟩, h₁, h⟩ := Option.bind_eq_some_iff.1 h
  obtain ⟨s₂, h₂, h⟩ := Option.bind_eq_some_iff.1 h
  obtain ⟨⟨_, s₃⟩, h₃, h⟩ := Option.bind_eq_some_iff.1 h
  obtain ⟨-, rfl⟩ := Prod.mk.inj (Option.some.inj h)
  have := some?_length h₁
  have := char?_length h₂
  have := some?_length h₃
  simp only at *
  omega

/-! ## Sections -/

/-- A reader of elements; what it leaves is shorter than what it was given. -/
structure Scanner (α : Type) where
  read? : List Char → Option (α × List Char)
  shortens : ∀ {s : List Char} {a : α} {rest : List Char},
    read? s = some (a, rest) → rest.length < s.length

/-- Reads points. -/
def points : Scanner PointText := ⟨point?, point?_length⟩

/-- Reads forces. -/
def forces : Scanner ForceText := ⟨force?, force?_length⟩

/-- Reads options. -/
def options : Scanner OptionText := ⟨option?, option?_length⟩

/-- A token as it is written, and the element that it is, if it is one. -/
structure Token (α : Type) where
  text : List Char
  element : Option α

/-- The tokens of a section. -/
def Scanner.tokens {α : Type} (scanner : Scanner α) (s : List Char) : List (Token α) :=
  match _hs : skipSpaces s with
  | [] => []
  | c :: rest =>
    match _hr : scanner.read? (c :: rest) with
    | some (a, after) =>
      ⟨(c :: rest).take ((c :: rest).length - after.length), some a⟩ :: scanner.tokens after
    | none =>
      ⟨c :: rest.takeWhile (!isSpace ·), none⟩ :: scanner.tokens (rest.dropWhile (!isSpace ·))
termination_by s.length
decreasing_by
  all_goals
    have h₁ := Text.skipSpaces_length_le s
    rw [_hs] at h₁
  · have := scanner.shortens _hr
    omega
  · have := (List.dropWhile_suffix (l := rest) (!isSpace ·)).length_le
    simp only [List.length_cons] at h₁
    omega

end FreeBody.Compact
