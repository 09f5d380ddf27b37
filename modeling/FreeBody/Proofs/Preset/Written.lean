import FreeBody.Proofs.Preset.Joining
import FreeBody.Proofs.Preset.Printed

/-!
# Lists of printed arguments

Arguments that are printed with commas between them are read back exactly if the commas part them:
no comma of what is printed for one stands outside brackets and braces, and all but the last close
as many as they open (`Parted`).  Brackets are counted wherever they stand, so only a string or a
name in a literal that holds one can get in the way (`readAll_written_iff`).
-/

namespace FreeBody.Argument

open Text (trim)
open Json (Kept)

/-- Arguments as they are printed, with commas between them. -/
def written (args : List Argument) : String := String.intercalate "," (args.map display)

/-- Whether the commas between printed arguments, and no others, part them. -/
structure Parted (args : List Argument) : Prop where
  encloses : ∀ a ∈ args, Encloses 0 a.display.toList
  closes : ∀ a ∈ args.dropLast, balance a.display.toList = 0

section

variable {a b : Argument} {args : List Argument}

theorem toList_written_singleton (a : Argument) :
    (written [a]).toList = a.display.toList := by
  simp [written]

theorem toList_written_cons_cons (a b : Argument) (args : List Argument) :
    (written (a :: b :: args)).toList = a.display.toList ++ ',' :: (written (b :: args)).toList := by
  simp [written]

theorem parted_singleton_iff : Parted [a] ↔ Encloses 0 a.display.toList :=
  ⟨fun h => h.encloses a (List.mem_singleton_self a),
    fun h => ⟨List.forall_mem_singleton.2 h, List.forall_mem_nil _⟩⟩

theorem parted_cons_cons_iff : Parted (a :: b :: args) ↔
    (Encloses 0 a.display.toList ∧ balance a.display.toList = 0) ∧ Parted (b :: args) := by
  constructor
  · rintro ⟨hencloses, hcloses⟩
    rw [List.forall_mem_cons] at hencloses
    rw [List.dropLast_cons_cons, List.forall_mem_cons] at hcloses
    exact ⟨⟨hencloses.1, hcloses.1⟩, hencloses.2, hcloses.2⟩
  · rintro ⟨⟨hencloses, hcloses⟩, h⟩
    refine ⟨List.forall_mem_cons.2 ⟨hencloses, h.encloses⟩, ?_⟩
    rw [List.dropLast_cons_cons]
    exact List.forall_mem_cons.2 ⟨hcloses, h.closes⟩

/-- Parted arguments are the pieces between the commas. -/
theorem split_written (hparted : Parted args) (hne : args ≠ []) :
    split 0 (written args).toList = args.map fun a => a.display.toList := by
  have htext : (written args).toList = [','].intercalate (args.map fun a => a.display.toList) := by
    simp [written, Function.comp_def]
  rw [htext]
  refine split_intercalate ?_ (List.forall_mem_map.2 hparted.encloses) ?_
  · rwa [ne_eq, List.map_eq_nil_iff]
  · rw [← List.map_dropLast]
    exact List.forall_mem_map.2 hparted.closes

theorem ofPieces_display (h : ∀ a ∈ args, a.Writable) :
    ofPieces (args.map fun a => a.display.toList) = args := by
  induction args with
  | nil => rfl
  | cons a args ih =>
    rw [List.forall_mem_cons] at h
    have hread : read (trim a.display.toList) = a := by rw [trim_display h.1, read_display h.1]
    cases args with
    | nil =>
      have hblank : ¬ Text.Blank a.display.toList := by
        rw [← Text.trim_eq_nil_iff, trim_display h.1]
        exact display_ne_nil h.1
      rw [List.map_singleton, ofPieces_of_not_blank hblank, hread]
    | cons b args => rw [List.map_cons, ofPieces_cons (by simp), hread, ih h.2]

theorem readAll_written (h : ∀ a ∈ args, a.Writable) (hparted : Parted args) :
    readAll (written args).toList = args := by
  rw [readAll]
  by_cases hne : args = []
  · subst hne
    rfl
  · rw [split_written hparted hne, ofPieces_display h]

/-- What is read back was parted: a piece cut elsewhere is not read as the argument that the text
goes on with. -/
theorem parted_of_readAll (h : ∀ a ∈ args, a.Writable)
    (hread : readAll (written args).toList = args) : Parted args := by
  induction args with
  | nil => exact ⟨List.forall_mem_nil _, List.forall_mem_nil _⟩
  | cons a args ih =>
    rw [List.forall_mem_cons] at h
    obtain ⟨t, ts, hts, hencloses, hcut⟩ := exists_split 0 (written (a :: args)).toList
    rw [readAll, hts] at hread
    cases args with
    | nil =>
      rw [toList_written_singleton] at hcut
      rcases hcut with ⟨rfl, rfl⟩ | ⟨rest, rfl, htext, -⟩
      · exact parted_singleton_iff.2 hencloses
      · rw [ofPieces_cons (split_ne_nil 0 rest)] at hread
        exact absurd (List.cons.inj hread).1 (read_shorter_ne h.1 htext)
    | cons b args =>
      rw [toList_written_cons_cons] at hcut
      rcases hcut with ⟨rfl, -⟩ | ⟨rest, rfl, htext, hzero⟩
      · rw [ofPieces] at hread
        split at hread <;> cases hread
      · rw [ofPieces_cons (split_ne_nil 0 rest)] at hread
        obtain ⟨hfirst, hrest⟩ := List.cons.inj hread
        obtain ⟨rfl, rfl⟩ := eq_display_of_read h.1 htext hfirst
        rw [zero_add] at hzero
        exact parted_cons_cons_iff.2 ⟨⟨hencloses, hzero⟩, ih h.2 hrest⟩

end

/-! ## Brackets in strings -/

section

variable {a : Argument} {args : List Argument}

/-- Whether no string and no name in a literal holds a bracket or a brace. -/
def Bracketless (a : Argument) : Prop :=
  ∀ v, a = .literal v → ∀ s ∈ v.strings, ∀ c ∈ s.toList, nesting c = 0

theorem kept_level : Kept Level where
  plain h := level_of_forall fun c hc => nesting_eq_zero (by decide) (h c hc)
  append := Level.append
  array h := h.surround rfl rfl
  object h := h.surround rfl rfl

/-- What is printed without brackets in strings is level, and its commas stand inside. -/
theorem encloses_display (h : a.Writable) (hno : a.Bracketless) :
    Encloses 0 a.display.toList ∧ balance a.display.toList = 0 := by
  cases a with
  | bool b => cases b <;> exact ⟨encloses_of_not_mem (by decide) 0, rfl⟩
  | number x =>
    have hchars := Decimal.isDecimalChar_of_read? (Decimal.read?_plain h)
    refine ⟨encloses_of_not_mem (fun hc => absurd (hchars _ hc) (by decide)) 0, ?_⟩
    exact balance_of_forall fun c hc => nesting_eq_zero (by decide) (hchars c hc)
  | text s => exact h.elim
  | literal v =>
    have hstrings : ∀ s ∈ v.strings, Level (Json.stringText s).toList := fun s hs =>
      level_of_forall (Json.forall_mem_stringText (by decide) (hno v rfl s hs))
    obtain ⟨inner, hinner, htext⟩ := kept_level.exists_inner .tight h.1 0 hstrings
    rw [← Json.Spacing.toList_compact 0] at htext
    rw [display]
    rcases htext with htext | htext <;> rw [htext]
    · exact ⟨hinner.encloses rfl (by decide), (hinner.surround rfl rfl).balance_eq⟩
    · exact ⟨hinner.encloses rfl (by decide), (hinner.surround rfl rfl).balance_eq⟩

theorem parted_of_bracketless (h : ∀ a ∈ args, a.Writable) (hno : ∀ a ∈ args, a.Bracketless) :
    Parted args where
  encloses a ha := (encloses_display (h a ha) (hno a ha)).1
  closes a ha :=
    have hmem := List.mem_of_mem_dropLast ha
    (encloses_display (h a hmem) (hno a hmem)).2

/-- **Printed arguments are read back exactly if they are parted.**  So they are if no string and
no name in a literal holds a bracket or a brace, whatever else they hold: then the pieces are the
printed arguments, and no comma inside a literal splits it. -/
theorem readAll_written_iff (h : ∀ a ∈ args, a.Writable) :
    (readAll (written args).toList = args ↔ Parted args) ∧
      ((∀ a ∈ args, a.Bracketless) →
        readAll (written args).toList = args ∧
          (args ≠ [] → split 0 (written args).toList = args.map fun a => a.display.toList)) := by
  refine ⟨⟨parted_of_readAll h, readAll_written h⟩, fun hno => ?_⟩
  have hparted := parted_of_bracketless h hno
  exact ⟨readAll_written h hparted, split_written hparted⟩

/-- Commas, quotes and parentheses in strings and names do not get in the way. -/
theorem readAll_written_commas :
    readAll (written [.bool true, .number 2.5, .literal (.object
        [("a,b", .array [.number (.whole (-1)), .null]), ("c", .string "x, (\"y\"")])]).toList =
      [.bool true, .number 2.5, .literal (.object
        [("a,b", .array [.number (.whole (-1)), .null]), ("c", .string "x, (\"y\"")])] := by
  refine ((readAll_written_iff ?_).2 ?_).1
  · simp only [List.forall_mem_cons]
    refine ⟨trivial, (by rfl : Float.isFinite 2.5 = true),
      ⟨rfl, ⟨by decide, ?_, ?_⟩, by decide⟩, List.forall_mem_nil _⟩
    · simp only [List.pairwise_cons, List.forall_mem_singleton]
      exact ⟨by decide, by simp, List.Pairwise.nil⟩
    · exact ⟨⟨by decide, rfl, trivial, trivial⟩, trivial, trivial⟩
  · simp only [List.forall_mem_cons]
    refine ⟨nofun, nofun, ?_, List.forall_mem_nil _⟩
    rintro v ⟨⟩
    decide

/-- The bracket in the first string of this array closes the array for the splitter, which then
cuts at the comma behind the string. -/
theorem bracket_in_string_splits :
    Writable (.literal (.array [.string "]", .number (.whole 1)])) ∧
      written [.literal (.array [.string "]", .number (.whole 1)])] = "[\"]\",1]" ∧
      readAll (written [.literal (.array [.string "]", .number (.whole 1)])]).toList =
        [.text "[\"]\"", .text "1]"] ∧
      readAll (written [.literal (.array [.string "]", .number (.whole 1)])]).toList ≠
        [.literal (.array [.string "]", .number (.whole 1)])] := by
  have hread : readAll (written [.literal (.array [.string "]", .number (.whole 1)])]).toList =
      [.text "[\"]\"", .text "1]"] := rfl
  refine ⟨⟨rfl, ⟨by decide, trivial, rfl, trivial⟩, by decide⟩, rfl, hread, ?_⟩
  rw [hread]
  exact nofun

end

end FreeBody.Argument
