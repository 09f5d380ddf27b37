import FreeBody.Proofs.Compact.Call
import FreeBody.Proofs.Compact.RoundTrip
import FreeBody.Proofs.Composition.Language

/-!
# A call in both notations

A preset is called with the same words in a compact text and in a combination, `name(arguments)`,
but the two readers look for the end of the arguments in different ways: the one takes the last
closing parenthesis of the text, the other the parenthesis that belongs to the first opening one.
Where the parentheses of the arguments belong together, these are the same, whatever else the
arguments hold (`call_reads_alike`).
-/

namespace FreeBody.Composition

open FreeBody.Compact (IsPresetName callText isPresetChar runPreset)
open Text (Balanced Stops)

/-- The text of a series whose only entry is a call. -/
def seriesText (name args : String) : String := "SERIES:" ++ name ++ "(" ++ args ++ ")"

theorem toList_seriesText (name args : String) : (seriesText name args).toList =
    "SERIES:".toList ++ (name.toList ++ '(' :: (args.toList ++ [')'])) := by
  unfold seriesText
  simp only [String.toList_append, List.append_assoc]
  rfl

/-! ## The slot of a call -/

section

variable {name args : List Char} {c : Char}

theorem isMark_of_isPresetChar (h : isPresetChar c = true) : isMark c = false := by
  rw [Bool.eq_false_iff]
  intro hc
  simp only [isMark, endsBare, Bool.or_eq_true, beq_iff_eq] at hc
  rcases hc with (((rfl | rfl) | rfl) | rfl) | rfl <;> cases h

theorem isBlank_of_isPresetChar (h : isPresetChar c = true) : Text.isBlank c = false := by
  rcases Bool.or_eq_true_iff.1 h with h | h
  · exact Compact.isBlank_of_isIdentChar h
  · obtain rfl := beq_iff_eq.1 h
    decide

theorem stops_isBlank_of_isPresetName (h : IsPresetName name) (rest : List Char) :
    Stops Text.isBlank (name ++ rest) := by
  obtain ⟨c, cs, rfl⟩ := List.exists_cons_of_ne_nil h.ne_nil
  exact Text.stops_cons_iff.2 (isBlank_of_isPresetChar (h.isPresetChar c List.mem_cons_self))

/-- Nothing is taken off the ends of a call. -/
theorem stops_call (h : IsPresetName name) (args : List Char) :
    Stops Text.isBlank (name ++ '(' :: (args ++ [')'])) ∧
      Stops Text.isBlank (name ++ '(' :: (args ++ [')'])).reverse := by
  refine ⟨stops_isBlank_of_isPresetName h _, ?_⟩
  simp only [List.reverse_append, List.reverse_cons, List.reverse_nil, List.nil_append,
    List.append_assoc, List.cons_append]
  exact Text.stops_cons_iff.2 (by decide)

/-- The parentheses of a call belong together, and its name has no marks. -/
theorem isBare_call (h : IsPresetName name) (hargs : Balanced '(' ')' args) :
    IsBare (name ++ '(' :: (args ++ [')'])) :=
  (isBare_of_forall fun c hc => isMark_of_isPresetChar (h.isPresetChar c hc)).append
    (.group hargs .nil)

theorem isWritten_call (h : IsPresetName name) (hargs : Balanced '(' ')' args) :
    (Slot.one (.bare (name ++ '(' :: (args ++ [')'])))).IsWritten false
      (name ++ '(' :: (args ++ [')'])) := by
  have hstops := stops_call h args
  have hstrip := Text.strip_eq_self_of_stops (Text.stops_isSpace_of_isBlank hstops.1)
    (Text.stops_isSpace_of_isBlank hstops.2)
  apply Slot.IsWritten.one
  rw [hstrip]
  exact .bare (List.append_ne_nil_of_left_ne_nil h.ne_nil _) (isBare_call h hargs)

/-- A call asks for the preset of its name, with everything between its first parenthesis and
its last. -/
theorem entry_call (h : IsPresetName name) (args : List Char) :
    (Segment.bare (name ++ '(' :: (args ++ [')']))).entry =
      { preset := String.ofList name, args := Argument.readAll args } := by
  have hnoparen : '(' ∉ name := fun hc => absurd (h.isPresetChar _ hc) (by decide)
  have hname : Text.trim name = name :=
    Text.trim_of_forall fun c hc => isBlank_of_isPresetChar (h.isPresetChar c hc)
  have htext : (Segment.bare (name ++ '(' :: (args ++ [')']))).text =
      name ++ '(' :: (args ++ [')']) :=
    Text.trim_eq_self_of_stops (stops_call h args).1 (stops_call h args).2
  rw [Segment.entry_of_call hnoparen htext, hname]

theorem readCombination_seriesText {name args : String} (h : IsPresetName name.toList)
    (hargs : Balanced '(' ')' args.toList) :
    readCombination (seriesText name args).toList =
      .ok ⟨.series, [{ preset := name, args := Argument.readAll args.toList }]⟩ := by
  have hslot := isWritten_call h hargs
  have hasks : Asks false (name.toList ++ '(' :: (args.toList ++ [')']))
      { preset := name, args := Argument.readAll args.toList } := by
    refine ⟨_, hslot, ?_⟩
    rw [Slot.entry, entry_call h, String.ofList_toList]
  have hheads : Heads "SERIES:".toList .series false := .series rfl
  rw [toList_seriesText, ← List.nil_append ("SERIES:".toList ++ _),
    readCombination_heads (List.forall_mem_nil _) hheads, slotTexts_of_passes (passes_slot hslot)]
  exact ⟨rfl, .cons hasks .nil⟩

end

/-! ## Both notations -/

/-- **A call reads alike in both notations.**  With arguments whose parentheses belong together, a
series of one call has one entry, with the name and the arguments of the call; and a compact text
with that call asks the registry for the name in lower case with the same arguments.  What the
registry makes is the diagram of the text; if it makes none, the fallback figures are asked for
the same name and arguments. -/
theorem call_reads_alike {name args : String} (h : IsPresetName name.toList)
    (hargs : Balanced '(' ')' args.toList) :
    readCombination (seriesText name args).toList =
        .ok ⟨.series, [{ preset := name, args := Argument.readAll args.toList }]⟩ ∧
      ∀ (r : Registry) (id : String),
        (∀ d, r.generate? (Text.lowercase name) id (Argument.readAll args.toList) =
            some (.ok d) → Compact.read r (callText name args) id = .ok ⟨d, []⟩) ∧
          Compact.read r (callText name args) id =
            (runPreset r (Text.lowercase name) id (Argument.readAll args.toList)).map
              (⟨·, []⟩) := by
  refine ⟨readCombination_seriesText h hargs, fun r id => ⟨fun d hd => ?_, ?_⟩⟩
  · rw [Compact.read_callText r h, runPreset, hd]
    rfl
  · exact Compact.read_callText r h args id

/-- Bars, quotes, commas, line feeds and brackets without an end stand in arguments as they
like. -/
theorem call_reads_alike_marks :
    readCombination (seriesText "Beam-2" "(1|\"a)(b\"),\n[2, 3").toList =
        .ok ⟨.series, [{ preset := "Beam-2", args := [.text "(1|\"a)(b\")", .text "[2, 3"] }]⟩ ∧
      Compact.read
          (Registry.empty.register "beam-2" fun id args =>
            .made { id := id ++ toString args.length, width := 600, height := 400 })
          (callText "Beam-2" "(1|\"a)(b\"),\n[2, 3") "d" =
        .ok ⟨{ id := "d2", width := 600, height := 400 }, []⟩ := by
  have hargs : Balanced '(' ')' "(1|\"a)(b\"),\n[2, 3".toList :=
    ((Text.toClosing_eq_some_iff (by decide)).1
      (by decide : Text.toClosing '(' ')' 0 "(1|\"a)(b\"),\n[2, 3)".toList =
        some ("(1|\"a)(b\"),\n[2, 3".toList, []))).2
  obtain ⟨hseries, hcompact⟩ := @call_reads_alike "Beam-2" _ ⟨by decide, by decide⟩ hargs
  exact ⟨hseries, (hcompact _ "d").1 _ rfl⟩

end FreeBody.Composition
