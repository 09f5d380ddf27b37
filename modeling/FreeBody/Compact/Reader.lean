import FreeBody.Compact.Sections
import FreeBody.Preset.Fallback

/-!
# Reading compact texts

A compact text is a preset call, `PRESET:name` or `PRESET:name(arguments)`, or the custom form
in sections.  The arguments of a call run to the last closing parenthesis of the text; what
follows that is ignored.  The registry is asked for the name first, the fallback figures next.
-/

namespace FreeBody.Compact

/-! ## Preset calls -/

/-- Whether `c` may stand in the name of a preset. -/
def isPresetChar (c : Char) : Bool := isIdentChar c || c == '-'

/-- The text before the last closing parenthesis. -/
def beforeLastParen? : List Char → Option (List Char)
  | [] => none
  | c :: rest =>
    match beforeLastParen? rest with
    | some text => some (c :: text)
    | none => if c = ')' then some [] else none

/-- A preset call: the name and, if there are parentheses, the text between them. -/
structure Call where
  name : List Char
  arguments : Option (List Char)

/-- Reads a call behind its tag; `whole` is the text with the tag. -/
def readCall (whole s : List Char) : Except CompactError Call :=
  let name := s.takeWhile isPresetChar
  let rest := Text.skipSpaces (s.dropWhile isPresetChar)
  if name.isEmpty then .error (.malformedCall (byteOffset whole s) .presetName)
  else
    match rest with
    | [] => .ok ⟨name, none⟩
    | c :: body =>
      match if c = '(' then beforeLastParen? body else none with
      | some text => .ok ⟨name, some text⟩
      | none => .error (.malformedCall (byteOffset whole rest) .endOfText)

/-- The diagram that a preset makes; `name` is in lower case.  The fallback figures stand in for
generators that are missing or fail. -/
def runPreset (r : Registry) (name id : String) (args : List Argument) :
    Except CompactError Diagram :=
  match r.generate? name id args with
  | some (.ok d) => .ok d
  | other =>
    match Preset.fallback? name id args with
    | some d => .ok d
    | none =>
      match other with
      | some (.error e) => .error (.generator name e)
      | _ => .error (.unknownPreset name)

/-- The diagram that a preset call makes; a call without parentheses has no arguments. -/
def runCall (r : Registry) (id : String) (call : Call) : Except CompactError Diagram :=
  runPreset r (Text.lowercase (String.ofList call.name)) id
    (call.arguments.elim [] Argument.readAll)

/-! ## Texts -/

/-- Reads a compact text into a diagram called `id`. -/
def read (r : Registry) (text id : String) : Except CompactError Parsed :=
  let s := Text.trim text.toList
  if s.isEmpty then .error .empty
  else
    match Text.dropPrefix? "PRESET:".toList s with
    | some rest =>
      match readCall s rest with
      | .ok call => (runCall r id call).map fun d => ⟨d, []⟩
      | .error e => .error e
    | none => readSections s id

/-! ## Pictures -/

section

variable {r : Registry} (hr : r.Makes fun _ d => d.IsFinished)

include hr

theorem runPreset_finished {name id : String} {args : List Argument} {d : Diagram}
    (h : runPreset r name id args = .ok d) : d.IsFinished := by
  unfold runPreset at h
  split at h
  next made hmade => exact Except.ok.inj h ▸ hr _ _ _ _ hmade
  next =>
    split at h
    next figure hfigure => exact Except.ok.inj h ▸ Preset.fallback?_finished hfigure
    next => split at h <;> cases h

/-- What is read carries its picture, if the diagrams of the presets do. -/
theorem read_finished {text id : String} {p : Parsed} (h : read r text id = .ok p) :
    p.diagram.IsFinished := by
  unfold read at h
  dsimp only at h
  split at h
  · cases h
  · split at h
    · split at h
      next call _ =>
        cases hrun : runCall r id call with
        | error e =>
          rw [hrun] at h
          cases h
        | ok d =>
          rw [hrun] at h
          exact Except.ok.inj h ▸ runPreset_finished hr hrun
      next => cases h
    · exact readSections_finished h

end

end FreeBody.Compact
