import FreeBody.Markup.Entity
import FreeBody.Markup.Scope

/-!
# The grammar of markup

Markup is well formed if it can be read as text and elements: text without angle brackets, and
elements whose end tags stand in the order opposite to their start tags, with distinct
attributes in double quotes.  No rule here reads a tree: the grammar is about characters alone.

An `&` is special everywhere: it must begin an entity.  `Content.entitiesOnly` says that the
grammar leaves no other `&` anywhere.
-/

namespace FreeBody.Markup

/-! ## Entities -/

/-- The entities that escaping writes. -/
def entities : List (List Char) := [
  ['&', 'a', 'm', 'p', ';'], ['&', 'l', 't', ';'], ['&', 'g', 't', ';'],
  ['&', 'q', 'u', 'o', 't', ';'], ['&', '#', '3', '9', ';']]

theorem mem_entities_iff {e : List Char} : e ∈ entities ↔ ∃ c, valueEntity? c = some e := by
  constructor
  · intro h
    simp only [entities, List.mem_cons, List.not_mem_nil, or_false] at h
    rcases h with rfl | rfl | rfl | rfl | rfl
    · exact ⟨'&', rfl⟩
    · exact ⟨'<', rfl⟩
    · exact ⟨'>', rfl⟩
    · exact ⟨'"', rfl⟩
    · exact ⟨'\'', rfl⟩
  · rintro ⟨c, h⟩
    unfold valueEntity? textEntity? at h
    split at h
    case h_3 => split at h <;> simp_all [entities]
    all_goals simp_all [entities]

/-- Every `&` in `s` begins an entity. -/
def EntitiesOnly (s : List Char) : Prop :=
  ∀ before after, s = before ++ '&' :: after → ∃ e ∈ entities, e <+: '&' :: after

theorem entitiesOnly_of_not_mem {s : List Char} (h : '&' ∉ s) : EntitiesOnly s := by
  rintro before after rfl
  exact absurd (List.mem_append_right before List.mem_cons_self) h

theorem EntitiesOnly.append {s t : List Char} (hs : EntitiesOnly s) (ht : EntitiesOnly t) :
    EntitiesOnly (s ++ t) := by
  intro before after h
  rcases List.append_eq_append_iff.mp h with ⟨gap, rfl, ht'⟩ | ⟨gap, rfl, hs'⟩
  · exact ht gap after ht'
  · cases gap with
    | nil => exact ht [] after hs'.symm
    | cons c gap =>
      obtain ⟨rfl, rfl⟩ := List.cons.inj hs'
      obtain ⟨e, he, hp⟩ := hs before gap rfl
      exact ⟨e, he, hp.trans (List.prefix_append ('&' :: gap) t)⟩

theorem entitiesOnly_of_mem {e : List Char} (h : e ∈ entities) : EntitiesOnly e := by
  -- an entity has no second `&`
  have tail : '&' ∉ e.tail := by revert e; decide
  intro before after he
  cases before with
  | nil => exact ⟨e, h, by rw [he]; exact List.prefix_rfl⟩
  | cons c before =>
    rw [he] at tail
    exact absurd (List.mem_append_right before List.mem_cons_self) tail

/-! ## Escaped text -/

/-- The characters that do not stand in text between tags. -/
def textReserved : List Char := ['<', '>']

/-- The characters that do not stand in the value of an attribute. -/
def valueReserved : List Char := ['<', '>', '"', '\'']

/-- Text without the characters `reserved` in which every `&` begins an entity. -/
structure Escaped (reserved s : List Char) : Prop where
  free : ∀ c ∈ reserved, c ∉ s
  entitiesOnly : EntitiesOnly s

variable {reserved : List Char}

theorem escaped_nil : Escaped reserved [] :=
  ⟨fun _ _ => List.not_mem_nil, entitiesOnly_of_not_mem List.not_mem_nil⟩

theorem Escaped.append {s t : List Char} (hs : Escaped reserved s) (ht : Escaped reserved t) :
    Escaped reserved (s ++ t) := by
  refine ⟨fun c hc hm => ?_, hs.entitiesOnly.append ht.entitiesOnly⟩
  rcases List.mem_append.mp hm with hm | hm
  · exact hs.free c hc hm
  · exact ht.free c hc hm

theorem escaped_flatMap {f : Char → List Char} (hf : ∀ c, Escaped reserved (f c)) (s : List Char) :
    Escaped reserved (s.flatMap f) := by
  induction s with
  | nil => exact escaped_nil
  | cons c s ih => exact (hf c).append ih

theorem escaped_singleton {c : Char} (hn : c ∉ reserved) (ha : c ≠ '&') :
    Escaped reserved [c] := by
  refine ⟨fun r hr hm => hn ?_, entitiesOnly_of_not_mem fun hm => ?_⟩
  · rw [← List.mem_singleton.mp hm]
    exact hr
  · exact ha (List.mem_singleton.mp hm).symm

theorem escaped_of_mem {e : List Char} (h : e ∈ entities) (hr : reserved ⊆ valueReserved) :
    Escaped reserved e := by
  have free : ∀ e ∈ entities, valueReserved.all (· ∉ e) := by decide
  refine ⟨fun c hc => ?_, entitiesOnly_of_mem h⟩
  exact of_decide_eq_true (List.all_eq_true.mp (free e h) c (hr hc))

/-! ## Tags -/

/-- Whether `s` is a name: a letter, then letters, digits and hyphens. -/
def isName : List Char → Bool
  | [] => false
  | c :: rest => isAsciiLetter c && rest.all fun c => isAsciiLetter c || isAsciiDigit c || c == '-'

/-- Attributes with these names, in order, each behind a blank. -/
inductive Attributes : List (List Char) → List Char → Prop
  | nil : Attributes [] []
  | cons {name value s : List Char} {names : List (List Char)} :
    isName name → Escaped valueReserved value → Attributes names s →
      Attributes (name :: names) (' ' :: name ++ '=' :: '"' :: value ++ '"' :: s)

/-- What a tag holds between its brackets: its name, then attributes of which no two have one
name. -/
structure Inside (name s : List Char) : Prop where
  called : isName name
  attributes : ∃ names rest, Attributes names rest ∧ names.Nodup ∧ s = name ++ rest

/-- Text and elements side by side, all elements with names that are `named`. -/
inductive Content (named : List Char → Prop) : List Char → Prop
  | nil : Content named []
  | text {t s : List Char} : Escaped textReserved t → Content named s → Content named (t ++ s)
  | closed {name inside s : List Char} : named name → Inside name inside → Content named s →
      Content named ('<' :: inside ++ '/' :: '>' :: s)
  | element {name inside inner s : List Char} : named name → Inside name inside →
      Content named inner → Content named s →
      Content named ('<' :: inside ++ '>' :: inner ++ '<' :: '/' :: name ++ '>' :: s)

/-- One element called `name`; the elements in it have names that are `named`. -/
def Element (named : List Char → Prop) (name s : List Char) : Prop :=
  ∃ inside inner, Inside name inside ∧ Content named inner ∧
    s = '<' :: inside ++ '>' :: inner ++ '<' :: '/' :: name ++ ['>']

section

variable {named : List Char → Prop}

theorem Content.append {s t : List Char} (hs : Content named s) (ht : Content named t) :
    Content named (s ++ t) := by
  induction hs with
  | nil => exact ht
  | text h _ ih =>
    rw [List.append_assoc]
    exact .text h ih
  | closed hn hi _ ih =>
    have := Content.closed hn hi ih
    simpa only [List.append_assoc, List.cons_append] using this
  | element hn hi hc _ _ ih =>
    have := Content.element hn hi hc ih
    simpa only [List.append_assoc, List.cons_append] using this

theorem Content.imp {named' : List Char → Prop} (himp : ∀ name, named name → named' name)
    {s : List Char} (h : Content named s) : Content named' s := by
  induction h with
  | nil => exact .nil
  | text ht _ ih => exact .text ht ih
  | closed hn hi _ ih => exact .closed (himp _ hn) hi ih
  | element hn hi _ _ ihinner ih => exact .element (himp _ hn) hi ihinner ih

theorem content_of_escaped {s : List Char} (h : Escaped textReserved s) : Content named s := by
  rw [← List.append_nil s]
  exact .text h .nil

theorem content_of_element {name s : List Char} (hn : named name) (h : Element named name s) :
    Content named s := by
  obtain ⟨inside, inner, hi, hc, rfl⟩ := h
  exact .element hn hi hc .nil

end

/-! ## Every `&` begins an entity -/

theorem entitiesOnly_of_isName {name : List Char} (h : isName name) : EntitiesOnly name := by
  apply entitiesOnly_of_not_mem
  intro hm
  cases name with
  | nil => exact absurd hm List.not_mem_nil
  | cons c rest =>
    simp only [isName, Bool.and_eq_true, List.all_eq_true] at h
    rcases List.mem_cons.mp hm with rfl | hm
    · exact absurd h.1 (by decide)
    · exact absurd (h.2 _ hm) (by decide)

theorem Attributes.entitiesOnly {names : List (List Char)} {s : List Char}
    (h : Attributes names s) : EntitiesOnly s := by
  induction h with
  | nil => exact entitiesOnly_of_not_mem List.not_mem_nil
  | cons hn hv _ ih =>
    have blank : EntitiesOnly [' '] := entitiesOnly_of_not_mem (by decide)
    have quote : EntitiesOnly ['=', '"'] := entitiesOnly_of_not_mem (by decide)
    have unquote : EntitiesOnly ['"'] := entitiesOnly_of_not_mem (by decide)
    have name := blank.append (entitiesOnly_of_isName hn)
    have value := quote.append hv.entitiesOnly
    have := (name.append value).append (unquote.append ih)
    simpa only [List.append_assoc, List.cons_append, List.nil_append] using this

theorem Inside.entitiesOnly {name s : List Char} (h : Inside name s) : EntitiesOnly s := by
  obtain ⟨hn, names, rest, ha, _, rfl⟩ := h
  exact (entitiesOnly_of_isName hn).append ha.entitiesOnly

/-- An element holds no bare `&` if its content holds none. -/
theorem Inside.entitiesOnly_element {name inside inner : List Char} (hi : Inside name inside)
    (hc : EntitiesOnly inner) :
    EntitiesOnly ('<' :: inside ++ '>' :: inner ++ '<' :: '/' :: name ++ ['>']) := by
  have less : EntitiesOnly ['<'] := entitiesOnly_of_not_mem (by decide)
  have greater : EntitiesOnly ['>'] := entitiesOnly_of_not_mem (by decide)
  have finish : EntitiesOnly ['<', '/'] := entitiesOnly_of_not_mem (by decide)
  have start := (less.append hi.entitiesOnly).append (greater.append hc)
  have := (start.append (finish.append (entitiesOnly_of_isName hi.called))).append greater
  simpa only [List.append_assoc, List.cons_append, List.nil_append] using this

/-- Well-formed content holds no `&` but those of entities. -/
theorem Content.entitiesOnly {named : List Char → Prop} {s : List Char} (h : Content named s) :
    EntitiesOnly s := by
  induction h with
  | nil => exact entitiesOnly_of_not_mem List.not_mem_nil
  | text ht _ ih => exact ht.entitiesOnly.append ih
  | closed _ hi _ ih =>
    have less : EntitiesOnly ['<'] := entitiesOnly_of_not_mem (by decide)
    have finish : EntitiesOnly ['/', '>'] := entitiesOnly_of_not_mem (by decide)
    have := (less.append hi.entitiesOnly).append (finish.append ih)
    simpa only [List.append_assoc, List.cons_append, List.nil_append] using this
  | element _ hi _ _ inner ih =>
    have := (hi.entitiesOnly_element inner).append ih
    simpa only [List.append_assoc, List.cons_append, List.nil_append] using this

theorem Element.entitiesOnly {named : List Char → Prop} {name s : List Char}
    (h : Element named name s) : EntitiesOnly s := by
  obtain ⟨inside, inner, hi, hc, rfl⟩ := h
  exact hi.entitiesOnly_element hc.entitiesOnly

end FreeBody.Markup
