import FreeBody.Proofs.Markup.Coordinate
import FreeBody.Proofs.Markup.Plain
import FreeBody.Proofs.Markup.Reading

/-!
# Numbers in attributes

Which attributes hold numbers, and how: one number, a size with a unit, a list, corners, a path or
a transformation.  The grammar of such a datum has the language of its numbers as a parameter
(`Datum.Language`), so that what is written may be compared with what is read.

A datum whose numbers are written as coordinates are is one of plain decimals, and one of numbers at
all, exactly if the word for what is too large is not in it (`Datum.plain_iff`).  A text is legible
if this holds of all its attributes (`Legible`).
-/

namespace FreeBody.Markup

open Decimal (isDigit point)

/-! ## Grammar -/

/-- What may stand between two numbers. -/
def separators : List (List Char) := [[','], [' '], [',', ' ']]

/-- The commands of paths, each with the count of its numbers. -/
def commands : List (Char × Nat) := [('M', 2), ('L', 2), ('A', 7)]

/-- The transformations, each with the count of its numbers. -/
def transformations : List (String × Nat) := [("rotate", 3), ("translate", 2), ("scale", 1)]

/-- How an attribute holds numbers. -/
inductive Datum
  | number
  | size
  | box
  | corners
  | path
  | transformation
  deriving DecidableEq

/-- The attributes that hold numbers. -/
def data : List (String × Datum) :=
  (["x", "y", "x1", "y1", "x2", "y2", "cx", "cy", "r", "rx", "width", "height", "markerWidth",
    "markerHeight", "refX", "refY", "offset", "opacity", "stroke-width"].map (·, .number)) ++
    [("font-size", .size), ("viewBox", .box), ("points", .corners), ("d", .path),
      ("transform", .transformation)]

/-- How the attribute of a name holds numbers, if it does. -/
def datumOf? (name : String) : Option Datum := data.lookup name

section

variable (number : List Char → Prop)

/-- So many numbers, with a separator between any two. -/
inductive Numbers : Nat → List Char → Prop
  | one {t : List Char} (h : number t) : Numbers 1 t
  | cons {t s : List Char} {count : Nat} (h : number t) {separator : List Char}
      (hs : separator ∈ separators) (rest : Numbers count s) :
      Numbers (count + 1) (t ++ (separator ++ s))

/-- A command with its numbers, perhaps after a blank. -/
def IsCommand (s : List Char) : Prop :=
  ∃ letter count blank t, s = letter :: (blank ++ t) ∧ (letter, count) ∈ commands ∧
    blank ∈ [[], [' ']] ∧ Numbers number count t

/-- Commands with a blank between any two. -/
inductive IsPath : List Char → Prop
  | one {s : List Char} (h : IsCommand number s) : IsPath s
  | cons {s t : List Char} (h : IsCommand number s) (rest : IsPath t) : IsPath (s ++ ' ' :: t)

/-- The texts of a datum. -/
def Datum.Language : Datum → List Char → Prop
  | .number, s => number s
  | .size, s => number s ∨ ∃ t, s = t ++ "em".toList ∧ number t
  | .box, s => Numbers number 4 s
  | .corners, s => ∃ count, Numbers number (2 * count) s
  | .path, s => s = [] ∨ IsPath number s
  | .transformation, s => ∃ name count t, s = name.toList ++ '(' :: t ++ [')'] ∧
      (name, count) ∈ transformations ∧ Numbers number count t

end

/-! ## Other numbers -/

section

variable {number number' : List Char → Prop} {s t : List Char} {count : Nat}

theorem Numbers.imp (h : Numbers number count s) (hn : ∀ t, t <:+: s → number t → number' t) :
    Numbers number' count s := by
  induction h with
  | one h => exact .one (hn _ List.infix_rfl h)
  | @cons t s count h separator hs _ ih =>
    refine .cons (hn t (List.prefix_append t _).isInfix h) hs (ih fun t' ht' => hn t' ?_)
    exact ht'.trans ⟨t ++ separator, [], by simp⟩

theorem IsCommand.imp (h : IsCommand number s) (hn : ∀ t, t <:+: s → number t → number' t) :
    IsCommand number' s := by
  obtain ⟨letter, count, blank, t, rfl, hletter, hblank, ht⟩ := h
  refine ⟨letter, count, blank, t, rfl, hletter, hblank, ht.imp fun t' ht' => hn t' ?_⟩
  exact ht'.trans ⟨letter :: blank, [], by simp⟩

theorem IsPath.imp (h : IsPath number s) (hn : ∀ t, t <:+: s → number t → number' t) :
    IsPath number' s := by
  induction h with
  | one h => exact .one (h.imp hn)
  | @cons s t h _ ih =>
    refine .cons (h.imp fun t' ht' => hn t' (ht'.trans (List.prefix_append s _).isInfix))
      (ih fun t' ht' => hn t' ?_)
    exact ht'.trans ⟨s ++ [' '], [], by simp⟩

/-- The numbers of a datum stand in it. -/
theorem Datum.Language.imp {d : Datum} (h : d.Language number s)
    (hn : ∀ t, t <:+: s → number t → number' t) : d.Language number' s := by
  cases d with
  | number => exact hn s List.infix_rfl h
  | size =>
    rcases h with h | ⟨t, rfl, h⟩
    · exact Or.inl (hn s List.infix_rfl h)
    · exact Or.inr ⟨t, rfl, hn t (List.prefix_append t _).isInfix h⟩
  | box => exact Numbers.imp h hn
  | corners =>
    obtain ⟨count, h⟩ := h
    exact ⟨count, h.imp hn⟩
  | path => exact Or.imp_right (fun h => h.imp hn) h
  | transformation =>
    obtain ⟨name, count, t, rfl, hname, h⟩ := h
    refine ⟨name, count, t, rfl, hname, h.imp fun t' ht' => hn t' (ht'.trans ?_)⟩
    exact ⟨name.toList ++ ['('], [')'], by simp⟩

/-! ## Characters -/

/-- The characters of data besides their numbers. -/
def marks : List Char :=
  ['M', 'L', 'A', ' ', ',', '(', ')', 'e', 'm'] ++ transformations.flatMap (·.1.toList)

variable {p : Char → Prop} (hmarks : ∀ c ∈ marks, p c) (hn : ∀ t, number t → ∀ c ∈ t, p c)

include hmarks hn

theorem Numbers.forall_mem (h : Numbers number count s) : ∀ c ∈ s, p c := by
  have hsubset : ∀ separator ∈ separators, separator ⊆ marks := by decide
  induction h with
  | one h => exact hn _ h
  | cons h hs _ ih =>
    rw [List.forall_mem_append, List.forall_mem_append]
    exact ⟨hn _ h, fun c hc => hmarks c (hsubset _ hs hc), ih⟩

theorem IsCommand.forall_mem (h : IsCommand number s) : ∀ c ∈ s, p c := by
  have hletters : ∀ command ∈ commands, command.1 ∈ marks := by decide
  have hblanks : ∀ blank ∈ [[], [' ']], blank ⊆ marks := by decide
  obtain ⟨letter, count, blank, t, rfl, hletter, hblank, ht⟩ := h
  rw [List.forall_mem_cons, List.forall_mem_append]
  exact ⟨hmarks _ (hletters _ hletter), fun c hc => hmarks c (hblanks _ hblank hc),
    ht.forall_mem hmarks hn⟩

theorem IsPath.forall_mem (h : IsPath number s) : ∀ c ∈ s, p c := by
  induction h with
  | one h => exact h.forall_mem hmarks hn
  | cons h _ ih =>
    rw [List.forall_mem_append, List.forall_mem_cons]
    exact ⟨h.forall_mem hmarks hn, hmarks ' ' (by decide), ih⟩

/-- The characters of a datum are its marks and those of its numbers. -/
theorem Datum.Language.forall_mem {d : Datum} (h : d.Language number s) : ∀ c ∈ s, p c := by
  cases d with
  | number => exact hn s h
  | size =>
    have hunit : "em".toList ⊆ marks := by decide
    rcases h with h | ⟨t, rfl, h⟩
    · exact hn s h
    · exact List.forall_mem_append.2 ⟨hn t h, fun c hc => hmarks c (hunit hc)⟩
  | box => exact Numbers.forall_mem hmarks hn h
  | corners =>
    obtain ⟨count, h⟩ := h
    exact h.forall_mem hmarks hn
  | path =>
    rcases h with rfl | h
    · exact List.forall_mem_nil _
    · exact h.forall_mem hmarks hn
  | transformation =>
    have hnames : ∀ f ∈ transformations, f.1.toList ⊆ marks := by decide
    obtain ⟨name, count, t, rfl, hname, h⟩ := h
    rw [List.forall_mem_append, List.forall_mem_append, List.forall_mem_cons,
      List.forall_mem_singleton]
    exact ⟨⟨fun c hc => hmarks c (hnames _ hname hc), hmarks '(' (by decide),
      h.forall_mem hmarks hn⟩, hmarks ')' (by decide)⟩

end

/-! ## Data of coordinates -/

section

variable {s : List Char} {c : Char} {d : Datum}

theorem IsWritten.numeral (h : IsWritten s) (hc : c ∈ s) : isNumeral c = true := by
  have hdigit : ∀ c, isDigit c = true → isNumeral c = true := fun c hc => by
    rw [isNumeral, hc, Bool.true_or]
  have hmagnitude {s : List Char} (h : IsMagnitude s) : ∀ c ∈ s, isNumeral c = true := by
    rw [h.parts, List.forall_mem_append]
    refine ⟨fun c hc => hdigit c (IsMagnitude.whole_digits c hc), fun c hc => ?_⟩
    rcases mem_point hc with rfl | hc
    · rfl
    · exact hdigit c (h.places_digits c hc)
  rcases h with (rfl | h | ⟨hsign, h⟩) | h
  · rw [List.mem_singleton.1 hc]
    rfl
  · exact hmagnitude h c hc
  · obtain ⟨rest, rfl⟩ := List.head?_eq_some_iff.1 hsign
    rcases List.mem_cons.1 hc with rfl | hc
    · rfl
    · exact hmagnitude h c hc
  · have hwords : ∀ s ∈ infinities, ∀ c ∈ s, isNumeral c = true := by decide
    exact hwords s h c hc

theorem IsWritten.isPlain (h : IsWritten s) (hs : ¬ "inf".toList <:+: s) : IsPlain s := by
  have hwords : ∀ s ∈ infinities, "inf".toList <:+: s := by decide
  exact h.resolve_right fun hword => hs (hwords s hword)

/-- Of what is written as coordinates are, all is plain, and all is read as numbers, exactly if the
word for what is too large is not in it. -/
theorem Datum.plain_iff (h : d.Language IsWritten s) :
    (d.Language IsPlain s ↔ ¬ "inf".toList <:+: s) ∧
      (d.Language IsNumber s ↔ ¬ "inf".toList <:+: s) := by
  have hplain (hs : ¬ "inf".toList <:+: s) : d.Language IsPlain s :=
    h.imp fun t ht hwritten => hwritten.isPlain fun hword => hs (hword.trans ht)
  have hnumber (h : d.Language IsPlain s) : d.Language IsNumber s :=
    h.imp fun _ _ h => h.isNumber
  have hword (h : d.Language IsNumber s) : ¬ "inf".toList <:+: s := by
    intro hword
    have hchars := h.forall_mem (p := (· ≠ 'i')) (by decide) fun t ht c hc => by
      rintro rfl
      exact absurd (ht.isDecimalChar hc) (by decide)
    exact hchars 'i' (hword.subset (by decide)) rfl
  exact ⟨⟨fun h => hword (hnumber h), hplain⟩, hword, fun hs => hnumber (hplain hs)⟩

end

/-! ## Attributes -/

/-- An attribute of which the numbers, if it holds any, are written as coordinates are. -/
def Measured (a : String × String) : Prop := ∀ d ∈ datumOf? a.1, d.Language IsWritten a.2.toList

/-- The same of an attribute that was read. -/
def ReadMeasured (a : List Char × List Char) : Prop :=
  ∀ d ∈ datumOf? (String.ofList a.1), d.Language IsWritten a.2

/-- Nothing in a datum is escaped. -/
theorem Measured.read {a : String × String} (h : Measured a) :
    ReadMeasured (a.1.toList, (escapeValue a.2).toList) := by
  intro d hd
  rw [String.ofList_toList] at hd
  have hfree : ∀ c ∈ a.2.toList, c ∉ '&' :: valueReserved := by
    refine (h d hd).forall_mem (by decide) fun t ht c hc hreserved => ?_
    have hnone : ∀ c ∈ '&' :: valueReserved, isNumeral c = false := by decide
    have hnumeral := ht.numeral hc
    rw [hnone c hreserved] at hnumeral
    cases hnumeral
  rw [escapeValue_eq_self fun c hc hv => hfree c hv hc]
  exact h d hd

section

variable {k v : String}

theorem measured_of_none (h : datumOf? k = none) : Measured (k, v) := by
  intro d hd
  rw [h] at hd
  cases hd

theorem measured_of_some {d : Datum} (h : datumOf? k = some d)
    (hv : d.Language IsWritten v.toList) : Measured (k, v) := by
  intro d' hd
  rw [h] at hd
  exact Option.some.inj hd ▸ hv

/-- A number that is written out. -/
theorem measured_of_literal (h : datumOf? k = some .number) (hv : IsWritten v.toList) :
    Measured (k, v) := measured_of_some h hv

@[simp 1100]
theorem measured_coordinate (h : datumOf? k = some .number) (x : Float) :
    Measured (k, coordinate x) := measured_of_some h (isWritten_coordinate x)

end

/-- The attributes of a tag as they are read. -/
theorem Tag.readMeasured {t : Tag} (h : ∀ a ∈ t.attributes, Measured a) :
    ∀ a ∈ t.pairs, ReadMeasured a := by
  intro a ha
  obtain ⟨b, hb, rfl⟩ := List.mem_map.1 ha
  exact (h b hb).read

theorem shiftAttributes_measured : ∀ a ∈ shiftAttributes, ReadMeasured a := by
  have htag (shift : Shift) : ∀ a ∈ shift.tag.attributes, Measured a := by
    have hsize : Measured ("font-size", "0.7em") :=
      measured_of_some (d := .size) (by decide) (Or.inr ⟨"0.7".toList, by decide, by decide⟩)
    simp (disch := decide) [Shift.tag, measured_of_none, hsize]
  exact List.forall_mem_append.2 ⟨Tag.readMeasured (htag .sub), Tag.readMeasured (htag .super)⟩

theorem readMeasured_of_readOf {a : List Char × List Char} (h : ReadOf Measured a) :
    ReadMeasured a := by
  rcases h with ⟨b, hb, rfl⟩ | h
  · exact hb.read
  · exact shiftAttributes_measured a h

theorem Node.All.readMeasured {n : Node} (h : n.All Measured) :
    ∀ a ∈ n.attributes, ReadMeasured a := fun a ha => readMeasured_of_readOf (h.readOf.2 a ha)

theorem NodesAll.readMeasured {ns : List Node} (h : NodesAll Measured ns) :
    ∀ a ∈ nodesAttributes ns, ReadMeasured a := fun a ha => readMeasured_of_readOf (h.readOf.2 a ha)

/-- Whether the numbers in the attributes of a text are written as coordinates are, and are plain,
and numbers at all, in just those attributes without the word for what is too large. -/
def Legible (s : List Char) : Prop :=
  ∀ a ∈ allAttributes s, ∀ d ∈ datumOf? (String.ofList a.1),
    d.Language IsWritten a.2 ∧ (d.Language IsPlain a.2 ↔ ¬ "inf".toList <:+: a.2) ∧
      (d.Language IsNumber a.2 ↔ ¬ "inf".toList <:+: a.2)

theorem legible_of_measured {s : List Char} (h : ∀ a ∈ allAttributes s, ReadMeasured a) :
    Legible s := fun a ha d hd => ⟨h a ha d hd, Datum.plain_iff (h a ha d hd)⟩

/-! ## Corners and paths -/

section

variable {number : List Char → Prop} {s t : List Char}

theorem isPlain_toString (n : Nat) : IsPlain (toString n).toList := by
  have hdigits : ∀ c ∈ Decimal.digits n, isDigit c = true := fun c hc =>
    Decimal.isDigit_of_mem_digits hc
  rw [Decimal.toList_toString]
  rcases Nat.eq_zero_or_pos n with rfl | hn
  · decide
  · have hzero : ∀ rest, Decimal.digits n ≠ '0' :: rest := Decimal.digits_ne_zero_cons hn
    have hmagnitude : IsMagnitude (Decimal.digits n ++ point []) :=
      isMagnitude_append (Decimal.digits_ne_nil n) hdigits (fun rest h => absurd h (hzero rest))
        (List.forall_mem_nil _) (by decide) (by decide) fun h => absurd h (hzero [])
    rw [point, if_pos rfl, List.append_nil] at hmagnitude
    exact Or.inr (Or.inl hmagnitude)

/-- The coordinates of a point. -/
theorem numbers_pair {separator : List Char} (hs : separator ∈ separators) (x y : Float) :
    Numbers IsWritten 2 ((coordinate x).toList ++ (separator ++ (coordinate y).toList)) :=
  .cons (isWritten_coordinate x) hs (.one (isWritten_coordinate y))

theorem numbers_corners {vs : List Vec} (h : vs ≠ []) :
    Numbers IsWritten (2 * vs.length) (corners vs).toList := by
  have hpair (v : Vec) {separator s : List Char} {count : Nat} (hs : separator ∈ separators)
      (h : Numbers IsWritten count s) : Numbers IsWritten (count + 2)
        ((coordinate v.x).toList ++ ([','] ++ ((coordinate v.y).toList ++ (separator ++ s)))) :=
    .cons (isWritten_coordinate v.x) (by decide) (.cons (isWritten_coordinate v.y) hs h)
  induction vs with
  | nil => exact absurd rfl h
  | cons v vs ih =>
    cases vs with
    | nil =>
      have hlast := numbers_pair (by decide : [','] ∈ separators) v.x v.y
      simpa [corners] using hlast
    | cons w vs =>
      have hrest := hpair v (by decide : [' '] ∈ separators) (ih (List.cons_ne_nil w vs))
      simpa [corners, String.intercalate_cons_cons, Nat.mul_add] using hrest

theorem IsPath.append (hs : IsPath number s) (ht : IsPath number t) :
    IsPath number (s ++ ' ' :: t) := by
  induction hs with
  | one h => exact .cons h ht
  | cons h _ ih =>
    rw [List.append_assoc, List.cons_append]
    exact .cons h ih

theorem isPath_intercalate {s : String} {ss : List String}
    (h : ∀ t ∈ s :: ss, IsPath number t.toList) :
    IsPath number (String.intercalate " " (s :: ss)).toList := by
  induction ss generalizing s with
  | nil =>
    rw [String.intercalate_singleton]
    exact h s List.mem_cons_self
  | cons t ss ih =>
    rw [List.forall_mem_cons] at h
    have hpath := h.1.append (ih h.2)
    simpa [String.intercalate_cons_cons] using hpath

/-- Paths with blanks between them are a path, or nothing if there are none. -/
theorem path_intercalate {ss : List String} (h : ∀ s ∈ ss, IsPath number s.toList) :
    Datum.path.Language number (String.intercalate " " ss).toList := by
  cases ss with
  | nil =>
    rw [String.intercalate_nil]
    exact Or.inl rfl
  | cons s ss => exact Or.inr (isPath_intercalate h)

end

end FreeBody.Markup
