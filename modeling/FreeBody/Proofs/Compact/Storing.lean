import FreeBody.Proofs.Compact.Reading
import FreeBody.Proofs.Compact.Reread
import FreeBody.Proofs.Diagram.Loading
import FreeBody.Proofs.Preset.Finite

/-!
# Storing what was read

A number of the custom form is a decimal of any length, so it can be too large for a double, and
its point or force is not left out for that.  The diagram of a text has finite numbers, and is
loaded from its stored form, just if no number of the text is that large (`stored_iff`).  The
numbers of a preset call are no reason: the presets make finite numbers of all arguments.
-/

namespace FreeBody.Compact

open Decimal (isDigit magnitude overflow)

/-! ## Numbers as they are written -/

/-- A number as it is written: an optional minus, digits, and optional places. -/
def IsNumeral (text : List Char) : Prop :=
  ∃ (negative : Bool) (whole places : List Char), whole ≠ [] ∧ (∀ c ∈ whole, isDigit c = true) ∧
    (∀ c ∈ places, isDigit c = true) ∧
    text = Decimal.sign negative ++ (whole ++ Decimal.point places)

theorem isNumeral_of_coordinate? {s part rest : List Char}
    (h : coordinate? s = some (part, rest)) : IsNumeral part := by
  obtain ⟨⟨n, r⟩, hn, hr⟩ := Option.bind_eq_some_iff.1 h
  obtain ⟨rfl, -⟩ := Prod.mk.inj (Option.some.inj hr)
  obtain ⟨negative, whole, places, hne, hw, hp, htext, -⟩ := number?_eq_some hn
  exact ⟨negative, whole, places, hne, hw, hp, by rw [htext, List.append_assoc]⟩

/-- Whether a number that is written is read as the double `x`. -/
def IsReadAs (text : List Char) (x : Float) : Prop :=
  IsNumeral text ∧ Decimal.read? text = some x

theorem IsNumeral.exists_isReadAs {text : List Char} (h : IsNumeral text) :
    ∃ x, IsReadAs text x := by
  obtain ⟨negative, whole, places, hne, hw, hp, rfl⟩ := h
  exact ⟨_, ⟨negative, whole, places, hne, hw, hp, rfl⟩, Decimal.read?_numeral negative hne hw hp⟩

/-- A number is read as a finite one unless it is too large. -/
theorem IsReadAs.isFinite_iff {text : List Char} {x : Float} (h : IsReadAs text x) :
    x.isFinite = true ↔ magnitude text < overflow := by
  obtain ⟨⟨negative, whole, places, hne, hw, hp, rfl⟩, hread⟩ := h
  exact Decimal.isFinite_read?_numeral negative hne hw hp hread

theorem finite_iff_of_isReadAs {texts : List (List Char)} {values : List Float}
    (h : List.Forall₂ IsReadAs texts values) :
    (∀ x ∈ values, x.isFinite = true) ↔ ∀ text ∈ texts, magnitude text < overflow := by
  induction h with
  | nil => exact iff_of_true (List.forall_mem_nil _) (List.forall_mem_nil _)
  | cons hread _ ih => rw [List.forall_mem_cons, List.forall_mem_cons, hread.isFinite_iff, ih]

/-- The numbers of a point, as they are written. -/
def PointText.numbers (t : PointText) : List (List Char) := [t.x, t.y]

/-- The numbers of a force, as they are written. -/
def ForceText.numbers (t : ForceText) : List (List Char) := [t.magnitude, t.angle]

theorem isNumeral_of_point? {s rest : List Char} {t : PointText}
    (h : point? s = some (t, rest)) : ∀ text ∈ t.numbers, IsNumeral text := by
  obtain ⟨⟨id, s₁⟩, -, h⟩ := Option.bind_eq_some_iff.1 h
  obtain ⟨s₂, -, h⟩ := Option.bind_eq_some_iff.1 h
  obtain ⟨⟨x, s₃⟩, hx, h⟩ := Option.bind_eq_some_iff.1 h
  obtain ⟨s₄, -, h⟩ := Option.bind_eq_some_iff.1 h
  obtain ⟨⟨y, s₅⟩, hy, h⟩ := Option.bind_eq_some_iff.1 h
  obtain ⟨s₆, -, h⟩ := Option.bind_eq_some_iff.1 h
  obtain ⟨rfl, -⟩ := Prod.mk.inj (Option.some.inj h)
  simp only [PointText.numbers, List.forall_mem_cons]
  exact ⟨isNumeral_of_coordinate? hx, isNumeral_of_coordinate? hy, List.forall_mem_nil _⟩

theorem isNumeral_of_force? {s rest : List Char} {t : ForceText}
    (h : force? s = some (t, rest)) : ∀ text ∈ t.numbers, IsNumeral text := by
  obtain ⟨⟨id, s₁⟩, -, h⟩ := Option.bind_eq_some_iff.1 h
  obtain ⟨s₂, -, h⟩ := Option.bind_eq_some_iff.1 h
  obtain ⟨⟨point, s₃⟩, -, h⟩ := Option.bind_eq_some_iff.1 h
  obtain ⟨s₄, -, h⟩ := Option.bind_eq_some_iff.1 h
  obtain ⟨⟨magnitude, s₅⟩, hmagnitude, h⟩ := Option.bind_eq_some_iff.1 h
  obtain ⟨s₆, -, h⟩ := Option.bind_eq_some_iff.1 h
  obtain ⟨⟨angle, s₇⟩, hangle, h⟩ := Option.bind_eq_some_iff.1 h
  obtain ⟨s₈, -, h⟩ := Option.bind_eq_some_iff.1 h
  obtain ⟨⟨label, s₉⟩, -, h⟩ := Option.bind_eq_some_iff.1 h
  obtain ⟨s₁₀, -, h⟩ := Option.bind_eq_some_iff.1 h
  obtain ⟨rfl, -⟩ := Prod.mk.inj (Option.some.inj h)
  simp only [ForceText.numbers, List.forall_mem_cons]
  exact ⟨isNumeral_of_coordinate? hmagnitude, isNumeral_of_coordinate? hangle,
    List.forall_mem_nil _⟩

/-- A point is made of its numbers. -/
theorem PointText.exists_point? {t : PointText} (h : ∀ text ∈ t.numbers, IsNumeral text) :
    ∃ p, t.point? = some p ∧ List.Forall₂ IsReadAs t.numbers p.numbers := by
  simp only [numbers, List.forall_mem_cons] at h
  obtain ⟨x, hx⟩ := h.1.exists_isReadAs
  obtain ⟨y, hy⟩ := h.2.1.exists_isReadAs
  unfold point?
  rw [hx.2, hy.2]
  exact ⟨_, rfl, .cons hx (.cons hy .nil)⟩

/-- A force is made of its numbers. -/
theorem ForceText.exists_force? {t : ForceText} (h : ∀ text ∈ t.numbers, IsNumeral text) :
    ∃ f warnings, t.force? = some (f, warnings) ∧ List.Forall₂ IsReadAs t.numbers f.numbers := by
  simp only [numbers, List.forall_mem_cons] at h
  obtain ⟨x, hx⟩ := h.1.exists_isReadAs
  obtain ⟨y, hy⟩ := h.2.1.exists_isReadAs
  have hnumbers : List.Forall₂ IsReadAs t.numbers [x, y] := .cons hx (.cons hy .nil)
  unfold force?
  rw [hx.2, hy.2]
  simp only [Option.bind_eq_bind, Option.bind_some]
  split
  · exact ⟨_, _, rfl, hnumbers⟩
  · split
    · exact ⟨_, _, rfl, hnumbers⟩
    · exact ⟨_, _, rfl, hnumbers⟩

/-! ## Sections -/

/-- The numbers of the elements among some tokens, as they are written. -/
def literalsOf {β : Type} (numbers : β → List (List Char)) (tokens : List (Token β)) :
    List (List Char) :=
  tokens.flatMap fun token => token.element.elim [] numbers

/-- The numbers of a section are finite just if none that is written is too large. -/
theorem finite_flatMap_iff {α β : Type} {scanner : Scanner β} {numbers : β → List (List Char)}
    {collect : Token β → List α} {values : α → List Float}
    (hnone : ∀ text, collect ⟨text, none⟩ = [])
    (hsome : ∀ {s rest : List Char} {t : β}, scanner.read? s = some (t, rest) → ∀ text,
      List.Forall₂ IsReadAs (numbers t) ((collect ⟨text, some t⟩).flatMap values))
    (s : List Char) :
    (∀ x ∈ ((scanner.tokens s).flatMap collect).flatMap values, x.isFinite = true) ↔
      ∀ text ∈ literalsOf numbers (scanner.tokens s), magnitude text < overflow := by
  rw [literalsOf, List.flatMap_assoc]
  fun_induction Scanner.tokens scanner s with
  | case1 => exact iff_of_true (List.forall_mem_nil _) (List.forall_mem_nil _)
  | case2 s c more hs t rest hread ih =>
    rw [List.flatMap_cons, List.flatMap_cons, List.forall_mem_append, List.forall_mem_append, ih,
      finite_iff_of_isReadAs (hsome hread _), Option.elim_some]
  | case3 s c more hs _ ih =>
    rw [List.flatMap_cons, List.flatMap_cons, hnone, Option.elim_none, List.flatMap_nil,
      List.nil_append, List.nil_append, ih]

theorem finite_readPoints_iff (s : List Char) :
    (∀ x ∈ (readPoints s).1.flatMap Point.numbers, x.isFinite = true) ↔
      ∀ text ∈ literalsOf PointText.numbers (points.tokens s), magnitude text < overflow := by
  rw [readPoints_eq]
  refine finite_flatMap_iff (fun _ => rfl) (fun hread text => ?_) s
  obtain ⟨p, hp, hnumbers⟩ := PointText.exists_point? (isNumeral_of_point? hread)
  simp only [collectPoint, Option.bind_some, hp, List.flatMap_singleton]
  exact hnumbers

theorem finite_readForces_iff (s : List Char) :
    (∀ x ∈ (readForces s).1.flatMap Force.numbers, x.isFinite = true) ↔
      ∀ text ∈ literalsOf ForceText.numbers (forces.tokens s), magnitude text < overflow := by
  rw [readForces_eq]
  refine finite_flatMap_iff (fun _ => rfl) (fun hread text => ?_) s
  obtain ⟨f, warnings, hf, hnumbers⟩ := ForceText.exists_force? (isNumeral_of_force? hread)
  simp only [collectForce, Option.bind_some, hf, List.flatMap_singleton]
  exact hnumbers

/-- The numbers of the points and forces of a text in sections, as they are written. -/
def literals (s : List Char) : List (List Char) :=
  literalsOf PointText.numbers (points.tokens (sections s).1) ++
    literalsOf ForceText.numbers (forces.tokens (sections s).2.1)

/-- The diagram of a text in sections has no other numbers than a size that is given. -/
theorem numbers_of_readSections {s : List Char} {id : String} {p : Parsed}
    (h : readSections s id = .ok p) :
    p.diagram.numbers = [600, 400] ++ (readPoints (sections s).1).1.flatMap Point.numbers ++
      (readForces (sections s).2.1).1.flatMap Force.numbers ∧
    p.diagram.needed = p.diagram.numbers := by
  obtain ⟨-, rfl⟩ := readSections_eq_ok_iff.1 h
  obtain ⟨axes, grid, angles, hb⟩ :=
    flagsSet_readOptions (b := filled id s) ⟨true, false, none, rfl⟩ (sections s).2.2
  simp only [hb]
  constructor
  · show _ ++ [] ++ [] = _
    rw [List.append_nil, List.append_nil]
    rfl
  · rfl

theorem finite_readSections_iff {s : List Char} {id : String} {p : Parsed}
    (h : readSections s id = .ok p) :
    p.diagram.Finite ↔ ∀ text ∈ literals s, magnitude text < overflow := by
  have hsize : ∀ x ∈ ([600, 400] : List Float), x.isFinite = true := by decide
  rw [Diagram.Finite, (numbers_of_readSections h).1, literals, List.forall_mem_append,
    List.forall_mem_append, List.forall_mem_append, finite_readPoints_iff, finite_readForces_iff,
    and_iff_right hsize]

/-! ## Texts -/

theorem finite_runCall {id : String} {call : Call} {d : Diagram}
    (h : runCall .builtin id call = .ok d) : d.Finite := by
  have hargs : ∀ a ∈ call.arguments.elim [] Argument.readAll, a.GivesFinite := by
    cases call.arguments with
    | none => exact nofun
    | some text => exact fun a => Argument.givesFinite_of_readAll
  rcases runPreset_eq_ok h with hmade | hfallback
  · obtain ⟨g, hget, hresult⟩ := Option.map_eq_some_iff.1 hmade
    exact Registry.builtin_keepsFinite _ g hget id _ d hargs hresult
  · exact Preset.fallback_finite hargs hfallback

/-- The numbers that a text gives, as they are written; the arguments of a call are none. -/
def givenNumbers (text : String) : List (List Char) :=
  if "PRESET:".toList <+: Text.trim text.toList then [] else literals (Text.trim text.toList)

/-- **A diagram that was read can be stored, unless a number of the text is too large.**  All its
numbers are finite, and it is loaded from its stored form, exactly if every number of the text,
however many digits it has, rounds to a finite double. -/
theorem stored_iff {text id : String} {p : Parsed} (h : read .builtin text id = .ok p) :
    (p.diagram.Finite ↔ ∀ n ∈ givenNumbers text, magnitude n < overflow) ∧
      ((∃ d, Diagram.load p.diagram.store = .ok d) ↔
        ∀ n ∈ givenNumbers text, magnitude n < overflow) := by
  rw [Diagram.load_store_iff]
  rcases read_cases h with ⟨rest, call, d, htag, -, hd, rfl⟩ | ⟨hcustom, hsections⟩
  · have hfinite : d.Finite := finite_runCall hd
    rw [givenNumbers, if_pos ⟨rest, htag.symm⟩]
    exact ⟨iff_of_true hfinite nofun,
      iff_of_true (fun x hx => hfinite x (Diagram.mem_numbers_of_mem_needed hx)) nofun⟩
  · have hiff := finite_readSections_iff hsections
    rw [givenNumbers, if_neg hcustom, (numbers_of_readSections hsections).2]
    exact ⟨hiff, hiff⟩

/-- A number of 308 digits is not too large. -/
theorem stored_long_number :
    let text := String.ofList ("P(0,0.5) | F@P(".toList ++ List.replicate 308 '9' ++
      ",-90,N)".toList)
    ∃ p, read .builtin text "d" = .ok p ∧ p.diagram.Finite ∧
      ∃ d, Diagram.load p.diagram.store = .ok d := by
  intro text
  have htext : text.toList = _ := String.toList_ofList
  have hcheck : (read .builtin text "d").toOption.isSome = true := by
    rw [read, htext]
    decide +kernel
  have hsmall : ∀ n ∈ givenNumbers text, magnitude n < overflow := by
    rw [givenNumbers, htext]
    decide +kernel
  rcases h : read .builtin text "d" with e | p
  · rw [h] at hcheck
    cases hcheck
  · exact ⟨p, rfl, (stored_iff h).1.2 hsmall, (stored_iff h).2.2 hsmall⟩

/-- A number of 310 digits is taken in without a warning as one that is not finite, and its diagram
is not loaded again. -/
theorem oversized_not_stored :
    let text := String.ofList ("P(0,0) Q(".toList ++ List.replicate 310 '9' ++ ",0)".toList)
    ∃ p, read .builtin text "d" = .ok p ∧ p.warnings = [] ∧ ¬p.diagram.Finite ∧
      ¬∃ d, Diagram.load p.diagram.store = .ok d := by
  intro text
  have htext : text.toList = _ := String.toList_ofList
  have hcheck : (read .builtin text "d").toOption.map (fun p =>
      p.warnings.isEmpty && !p.diagram.needed.all Float.isFinite) = some true := by
    rw [read, htext]
    decide +kernel
  rcases h : read .builtin text "d" with e | p
  · rw [h] at hcheck
    cases hcheck
  · rw [h] at hcheck
    replace hcheck := Option.some.inj hcheck
    rw [Bool.and_eq_true, Bool.not_eq_true', List.isEmpty_iff, ← Bool.not_eq_true,
      List.all_eq_true] at hcheck
    obtain ⟨hwarnings, hneeded⟩ := hcheck
    exact ⟨p, rfl, hwarnings,
      fun hfinite => hneeded fun x hx => hfinite x (Diagram.mem_numbers_of_mem_needed hx),
      fun hload => hneeded ((Diagram.load_store_iff _).1 hload)⟩

end FreeBody.Compact
