import FreeBody.Proofs.Decimal.ReadBack
import FreeBody.Proofs.Json.Characters
import FreeBody.Proofs.Json.Extension
import FreeBody.Proofs.Json.Literal
import FreeBody.Proofs.Preset.Splitting
import FreeBody.Proofs.Text.Lines

/-!
# Printed arguments

Truth values, finite numbers and literals are told from their written forms (`read_display`).  A
list of them, written with commas between, is read back exactly if the commas part it: no comma of
a literal stands outside brackets and braces, and those of all but the last come in pairs
(`Parted`).  Brackets are counted wherever they stand, so a literal may fail to do so only if a
string in it or a name holds one (`readAll_written_iff`).
-/

namespace FreeBody.Argument

open Text (Blank Stops isBlank trim)
open Json (Kept)

/-- Whether the written form of an argument tells which one it is. -/
def Writable : Argument → Prop
  | bool _ => True
  | number x => x.isFinite = true
  | text _ => False
  | literal v =>
    v.isNested = true ∧ v.Restorable Json.maxDepth ∧ ∀ s ∈ v.strings, '\'' ∉ s.toList

/-! ## What is read from a text -/

theorem read_cases (s : List Char) :
    (∃ b, s = (display (.bool b)).toList ∧ read s = .bool b) ∨
      (∃ x, finite? s = some x ∧ read s = .number x) ∨
      (∃ v, literal? s = some v ∧ read s = .literal v) ∨ ∃ t, read s = .text t := by
  unfold read
  split
  next h => exact Or.inl ⟨true, h, rfl⟩
  next =>
  split
  next h => exact Or.inl ⟨false, h, rfl⟩
  next =>
  split
  next x h =>
    refine Or.inr (Or.inl ⟨x, ?_, rfl⟩)
    split at h
    next => cases h
    next => exact h
  next =>
  split
  next v h => exact Or.inr (Or.inr (Or.inl ⟨v, h, rfl⟩))
  next =>
  split
  next => exact Or.inr (Or.inr (Or.inr ⟨_, rfl⟩))
  next => exact Or.inr (Or.inr (Or.inr ⟨_, rfl⟩))

section

variable {s : List Char} {v : Json} {x : Float} {b : Bool}

theorem eq_of_read_bool (h : read s = .bool b) : s = (display (.bool b)).toList := by
  rcases read_cases s with ⟨c, hs, hr⟩ | ⟨y, -, hr⟩ | ⟨w, -, hr⟩ | ⟨t, hr⟩ <;> rw [hr] at h <;>
    cases h
  exact hs

theorem finite?_of_read (h : read s = .number x) : finite? s = some x := by
  rcases read_cases s with ⟨c, -, hr⟩ | ⟨y, hs, hr⟩ | ⟨w, -, hr⟩ | ⟨t, hr⟩ <;> rw [hr] at h <;>
    cases h
  exact hs

theorem literal?_of_read (h : read s = .literal v) : literal? s = some v := by
  rcases read_cases s with ⟨c, -, hr⟩ | ⟨y, -, hr⟩ | ⟨w, hs, hr⟩ | ⟨t, hr⟩ <;> rw [hr] at h <;>
    cases h
  exact hs

theorem isDecimalChar_of_finite? (h : finite? s = some x) :
    ∀ c ∈ s, Decimal.isDecimalChar c = true :=
  Decimal.isDecimalChar_of_read? (Option.filter_eq_some_iff.1 h).1

theorem isAlpha_of_isDigit {c : Char} (h : Decimal.isDigit c = true) : c.isAlpha = false := by
  have hle : c ≤ '9' := of_decide_eq_true (Bool.and_eq_true_iff.1 h).2
  have hascii : c.toNat < 128 := Nat.lt_of_le_of_lt (UInt32.le_iff_toNat_le.1 hle) (by decide)
  exact Text.forall_ascii (P := fun c => Decimal.isDigit c = true → c.isAlpha = false)
    (by decide +kernel) hascii h

theorem hasWordLetter_of_decimal (h : ∀ c ∈ s, Decimal.isDecimalChar c = true) :
    hasWordLetter s = false := by
  unfold hasWordLetter
  rw [List.any_eq_false]
  intro c hc
  rcases Bool.or_eq_true_iff.1 (h c hc) with hdigit | hother
  · simp [isAlpha_of_isDigit hdigit]
  · simp only [List.contains_eq_mem, List.mem_cons, List.not_mem_nil, or_false,
      decide_eq_true_eq] at hother
    rcases hother with rfl | rfl | rfl | rfl | rfl <;> decide

/-! ## Reading what is printed -/

theorem read_display_bool (b : Bool) : read (display (.bool b)).toList = .bool b := by
  cases b <;> rfl

theorem read_display_number (h : x.isFinite = true) :
    read (display (.number x)).toList = .number x := by
  have hread : Decimal.read? (Decimal.plain x).toList = some x := Decimal.read?_plain h
  have hchars := Decimal.isDecimalChar_of_read? hread
  have hne : ∀ word : String, 't' ∈ word.toList ∨ 'f' ∈ word.toList →
      (Decimal.plain x).toList ≠ word.toList := by
    intro word hword heq
    rw [← heq] at hword
    rcases hword with hc | hc <;> exact absurd (hchars _ hc) (by decide)
  have hfinite : finite? (Decimal.plain x).toList = some x := by
    rw [finite?, hread, Option.filter_some, if_pos h]
  unfold read display
  rw [if_neg (hne "true" (by decide)), if_neg (hne "false" (by decide)),
    hasWordLetter_of_decimal hchars, if_neg (by decide), hfinite]

theorem replaceChar_of_not_mem {old : Char} (h : old ∉ s) (new : List Char) :
    Text.replaceChar old new s = s := by
  induction s with
  | nil => rfl
  | cons c s ih =>
    rw [List.mem_cons, not_or] at h
    rw [Text.replaceChar, List.flatMap_cons, if_neg (Ne.symm h.1), ← Text.replaceChar, ih h.2]
    rfl

theorem kept_true : Kept fun _ => True :=
  ⟨fun _ => trivial, fun _ _ => trivial, fun _ => trivial, fun _ => trivial⟩

theorem kept_quoteless : Kept fun s => '\'' ∉ s where
  plain h hquote := absurd (h _ hquote) (by decide)
  append hs ht := by
    rw [List.mem_append, not_or]
    exact ⟨hs, ht⟩
  array hs := by simpa using hs
  object hs := by simpa using hs

/-- What a nested value is printed as begins with a bracket and ends with the other one. -/
theorem exists_compact (hv : v.isNested = true) : ∃ inner,
    v.compact.toList = '[' :: (inner ++ [']']) ∨ v.compact.toList = '{' :: (inner ++ ['}']) := by
  rw [Json.Spacing.toList_compact 0]
  obtain ⟨inner, -, h⟩ := kept_true.exists_inner _ hv 0 fun _ _ => trivial
  exact ⟨inner, h⟩

theorem exists_cons_compact (hv : v.isNested = true) :
    ∃ c rest, v.compact.toList = c :: rest ∧ (c = '[' ∨ c = '{') := by
  obtain ⟨inner, h | h⟩ := exists_compact hv
  · exact ⟨_, _, h, Or.inl rfl⟩
  · exact ⟨_, _, h, Or.inr rfl⟩

theorem isBetween_surround (opening closing : Char) (inner : List Char) :
    isBetween opening closing (opening :: (inner ++ [closing])) = true := by
  rw [isBetween, ← List.cons_append, List.getLast?_concat]
  simp

theorem quote_not_mem_compact (h : (literal v).Writable) : '\'' ∉ v.compact.toList := by
  rw [Json.Spacing.toList_compact 0]
  refine kept_quoteless.text _ 0 fun s hs hquote => ?_
  have hne : ∀ c ∈ s.toList, c ≠ '\'' := fun c hc heq => h.2.2 s hs (heq ▸ hc)
  exact Json.forall_mem_stringText (by decide) hne _ hquote rfl

theorem literal?_compact (h : (literal v).Writable) : literal? v.compact.toList = some v := by
  have hbetween : (isBetween '[' ']' v.compact.toList || isBetween '{' '}' v.compact.toList) =
      true := by
    obtain ⟨inner, heq | heq⟩ := exists_compact h.1 <;> rw [heq, isBetween_surround]
    · rfl
    · rw [Bool.or_true]
  rw [literal?, if_pos hbetween, replaceChar_of_not_mem (quote_not_mem_compact h),
    Json.parse?_compact h.2.1]

theorem read_display_literal (h : (literal v).Writable) :
    read (display (.literal v)).toList = .literal v := by
  obtain ⟨c, rest, htext, hc⟩ := exists_cons_compact h.1
  have hne : ∀ word : String, '[' ∉ word.toList → '{' ∉ word.toList →
      v.compact.toList ≠ word.toList := by
    intro word hsquare hcurly heq
    rw [← heq, htext] at hsquare hcurly
    rcases hc with rfl | rfl
    · exact hsquare List.mem_cons_self
    · exact hcurly List.mem_cons_self
  have hfinite : finite? v.compact.toList = none := by
    rw [Option.eq_none_iff_forall_ne_some]
    intro x hx
    have := isDecimalChar_of_finite? hx c (htext ▸ List.mem_cons_self)
    rcases hc with rfl | rfl <;> cases this
  unfold read display
  rw [if_neg (hne "true" (by decide) (by decide)), if_neg (hne "false" (by decide) (by decide)),
    hfinite, ite_self, literal?_compact h]


/-- What is printed is read as the argument that it was printed for. -/
theorem read_display {a : Argument} (h : a.Writable) : read a.display.toList = a := by
  cases a with
  | bool b => exact read_display_bool b
  | number x => exact read_display_number h
  | text s => exact h.elim
  | literal v => exact read_display_literal h

theorem isBlank_of_isDecimalChar {c : Char} (h : Decimal.isDecimalChar c = true) :
    isBlank c = false := by
  simp only [Decimal.isDecimalChar, Decimal.isDigit, Bool.or_eq_true, Bool.and_eq_true,
    decide_eq_true_eq, List.contains_eq_mem, List.mem_cons, List.not_mem_nil, or_false] at h
  rcases h with h | rfl | rfl | rfl | rfl | rfl
  · exact Text.isBlank_of_printed (Nat.le_trans (by decide) (Char.le_def.1 h.1))
      (Nat.le_trans (Char.le_def.1 h.2) (by decide))
  all_goals decide

/-- Nothing is taken off what is printed. -/
theorem trim_display {a : Argument} (h : a.Writable) :
    trim a.display.toList = a.display.toList := by
  cases a with
  | bool b => cases b <;> exact Text.trim_of_forall (by decide)
  | number x =>
    have hchars := Decimal.isDecimalChar_of_read? (Decimal.read?_plain h)
    exact Text.trim_of_forall fun c hc => isBlank_of_isDecimalChar (hchars c hc)
  | text s => exact h.elim
  | literal v =>
    have hbetween : ∀ opening closing : Char, isBlank opening = false → isBlank closing = false →
        ∀ inner, trim (opening :: (inner ++ [closing])) = opening :: (inner ++ [closing]) :=
      fun opening closing ho hc => Text.trim_append_append
        (Text.trim_of_forall (List.forall_mem_singleton.2 ho))
        (Text.trim_of_forall (List.forall_mem_singleton.2 hc)) (by simp) (by simp)
    obtain ⟨inner, heq | heq⟩ := exists_compact h.1
    · rw [display, heq, hbetween _ _ (by decide) (by decide)]
    · rw [display, heq, hbetween _ _ (by decide) (by decide)]

theorem display_ne_nil {a : Argument} (h : a.Writable) : a.display.toList ≠ [] := by
  intro hnil
  have hread := read_display h
  rw [hnil] at hread
  subst hread
  exact h

end

/-! ## Pieces that are cut elsewhere -/

section

variable {s t more : List Char} {a : Argument}

/-- Blanks behind a comma are all that trimming takes off behind what stands before it. -/
theorem exists_trim_append_comma (hne : s ≠ []) (hs : Stops isBlank s) (more : List Char) :
    ∃ more', trim (s ++ ',' :: more) = s ++ ',' :: more' := by
  obtain ⟨u, b, hu, hb, heq⟩ := Text.exists_trim (s ++ ',' :: more)
  have hstart : Stops isBlank (u ++ (trim (s ++ ',' :: more) ++ b)) :=
    heq ▸ Text.stops_append hne hs _
  obtain rfl : u = [] := by
    cases u with
    | nil => rfl
    | cons c u =>
      have := Text.stops_cons_iff.1 hstart
      rw [hu c List.mem_cons_self] at this
      cases this
  have hcomma : ',' ∉ b := fun hc => absurd (hb _ hc) (by decide)
  rw [List.nil_append] at heq
  rcases List.append_eq_append_iff.1 heq with ⟨m, hm, hrest⟩ | ⟨m, -, hrest⟩
  · cases m with
    | nil =>
      rw [List.nil_append] at hrest
      exact absurd (hrest ▸ List.mem_cons_self) hcomma
    | cons d m =>
      obtain ⟨rfl, -⟩ := List.cons.inj hrest
      exact ⟨m, hm⟩
  · exact absurd (hrest ▸ List.mem_append_right m List.mem_cons_self) hcomma

/-- What is printed for a truth value or a number holds no comma, nor does any text that is read
as one. -/
theorem comma_not_mem_of_read (h : ∀ v, a ≠ .literal v) (h' : ∀ s, a ≠ .text s)
    (hread : read s = a) : ',' ∉ s := by
  cases a with
  | bool b =>
    rw [eq_of_read_bool hread]
    cases b <;> decide
  | number x =>
    intro hc
    exact absurd (isDecimalChar_of_finite? (finite?_of_read hread) _ hc) (by decide)
  | text s => exact absurd rfl (h' s)
  | literal v => exact absurd rfl (h v)

/-- What makes up a literal is no literal with a comma and more behind it. -/
theorem literal?_compact_append_comma {v w : Json} (h : (literal v).Writable) (more : List Char) :
    literal? (v.compact.toList ++ ',' :: more) ≠ some w := by
  intro hw
  unfold literal? at hw
  split at hw
  next =>
    have hreplace : Text.replaceChar '\'' ['"'] (v.compact.toList ++ ',' :: more) =
        v.compact.toList ++ ',' :: Text.replaceChar '\'' ['"'] more := by
      rw [Text.replaceChar, List.flatMap_append, ← Text.replaceChar,
        replaceChar_of_not_mem (quote_not_mem_compact h)]
      rfl
    have hdraft := Json.draft_append (Json.draft_compact v h.2.1.readable)
      (Text.stops_cons_iff.2 rfl : Stops Json.continuesNumber
        (',' :: Text.replaceChar '\'' ['"'] more))
    rw [hreplace, Json.parse?, hdraft] at hw
    cases hw
  next => cases hw

/-- A piece that goes on behind a comma is not read as what is printed before. -/
theorem read_longer_ne (h : a.Writable) (more : List Char) :
    read (trim (a.display.toList ++ ',' :: more)) ≠ a := by
  intro hread
  have hcomma : ',' ∈ trim (a.display.toList ++ ',' :: more) :=
    Text.mem_trim (by decide) (List.mem_append_right _ List.mem_cons_self)
  cases a with
  | bool b => exact comma_not_mem_of_read (by simp) (by simp) hread hcomma
  | number x => exact comma_not_mem_of_read (by simp) (by simp) hread hcomma
  | text s => exact h
  | literal v =>
    obtain ⟨c, rest, htext, hc⟩ := exists_cons_compact h.1
    have hdisplay : (display (.literal v)).toList = c :: rest := htext
    have hblank : isBlank c = false := by rcases hc with rfl | rfl <;> decide
    obtain ⟨more', htrim⟩ := exists_trim_append_comma (hdisplay ▸ List.cons_ne_nil c rest)
      (hdisplay ▸ Text.stops_cons_iff.2 hblank) more
    rw [htrim] at hread
    exact literal?_compact_append_comma h more' (literal?_of_read hread)

theorem continuesNumber_of_isBlank {c : Char} (h : isBlank c = true) :
    Json.continuesNumber c = false := by
  rw [Bool.eq_false_iff]
  intro hc
  have hdecimal : Decimal.isDecimalChar c = true := by
    simp only [Json.continuesNumber, Bool.or_eq_true, beq_iff_eq] at hc
    rcases hc with ((hc | rfl) | rfl) | rfl
    · exact Decimal.isDecimalChar_of_isDigit hc
    all_goals rfl
  rw [isBlank_of_isDecimalChar hdecimal] at h
  cases h

/-- No literal ends before a comma of what makes up another one. -/
theorem literal?_ne_of_compact {v w : Json} (h : (literal v).Writable)
    (heq : v.compact.toList = s ++ (t ++ ',' :: more)) (ht : Blank t) : literal? s ≠ some w := by
  intro hw
  have hquote : '\'' ∉ s := fun hc =>
    quote_not_mem_compact h (heq ▸ List.mem_append_left _ hc)
  unfold literal? at hw
  split at hw
  next =>
    rw [replaceChar_of_not_mem hquote, Json.parse?] at hw
    split at hw
    next d after hdraft =>
      have hstops : Stops Json.continuesNumber (t ++ ',' :: more) := by
        cases t with
        | nil => exact Text.stops_cons_iff.2 rfl
        | cons c t =>
          exact Text.stops_cons_iff.2 (continuesNumber_of_isBlank (ht c List.mem_cons_self))
      have hwhole := Json.draft_append hdraft hstops
      rw [← heq, Json.draft_compact v h.2.1.readable, Prod.mk.injEq, Option.some.injEq] at hwhole
      simpa using hwhole.2
    next => cases hw
  next => cases hw

/-- A piece that ends before a comma of what is printed is not read as that. -/
theorem read_shorter_ne (h : a.Writable) (heq : a.display.toList = t ++ ',' :: more) :
    read (trim t) ≠ a := by
  intro hread
  have hcomma : ',' ∈ a.display.toList := heq ▸ List.mem_append_right _ List.mem_cons_self
  cases a with
  | bool b => exact comma_not_mem_of_read (by simp) (by simp) (read_display h) hcomma
  | number x => exact comma_not_mem_of_read (by simp) (by simp) (read_display h) hcomma
  | text s => exact h
  | literal v =>
    obtain ⟨c, rest, htext, hc⟩ := exists_cons_compact h.1
    obtain ⟨u, b, hu, hb, ht⟩ := Text.exists_trim t
    have hcut : v.compact.toList = u ++ (trim t ++ (b ++ ',' :: more)) := by
      calc v.compact.toList = t ++ ',' :: more := heq
        _ = u ++ (trim t ++ b) ++ ',' :: more := by rw [← ht]
        _ = u ++ (trim t ++ (b ++ ',' :: more)) := by simp only [List.append_assoc]
    obtain rfl : u = [] := by
      cases u with
      | nil => rfl
      | cons d u =>
        rw [htext] at hcut
        obtain ⟨rfl, -⟩ := List.cons.inj hcut
        have := hu c List.mem_cons_self
        rcases hc with rfl | rfl <;> cases this
    exact literal?_ne_of_compact h hcut hb (literal?_of_read hread)

/-- A piece of a text that goes on with what is printed for an argument is that, if it is read as
the argument. -/
theorem eq_display_of_read {rest : List Char} (h : a.Writable)
    (htext : a.display.toList ++ ',' :: more = t ++ ',' :: rest) (hread : read (trim t) = a) :
    t = a.display.toList ∧ rest = more := by
  rcases List.append_eq_append_iff.1 htext with ⟨m, hm, hmore⟩ | ⟨m, hm, hmore⟩
  · cases m with
    | nil =>
      rw [List.append_nil] at hm
      exact ⟨hm, (List.cons.inj hmore).2.symm⟩
    | cons c m =>
      obtain ⟨rfl, -⟩ := List.cons.inj hmore
      exact absurd hread (hm ▸ read_longer_ne h m)
  · cases m with
    | nil =>
      rw [List.append_nil] at hm
      exact ⟨hm.symm, (List.cons.inj hmore).2⟩
    | cons c m =>
      obtain ⟨rfl, -⟩ := List.cons.inj hmore
      exact absurd hread (read_shorter_ne h hm)

end

end FreeBody.Argument
