import FreeBody.Compact.Reader
import FreeBody.Composition.Assembly

/-!
# Sheets

A sheet is a file with one compact text or combination a line.  Blank lines and lines that begin
with `#` are passed over, but counted.  The diagrams of the built-in presets carry their pictures, so
every diagram of a sheet has one (`Line.finished`).
-/

namespace FreeBody.Sheet

/-- A line of a sheet, without the blanks around it, and its number from 1. -/
structure Line where
  number : Nat
  text : String

/-- Whether a line has something to draw. -/
def isDrawn (s : List Char) : Bool := !s.isEmpty && s.head? != some '#'

/-- The lines of a sheet that have something to draw. -/
def lines (source : String) : List Line :=
  let numbered := ((Text.lines source.toList).map Text.trim).zipIdx 1
  (numbered.filter fun l => isDrawn l.1).map fun l => ⟨l.2, String.ofList l.1⟩

namespace Line

/-- The id of the diagram of a line. -/
def id (l : Line) : String := "line-" ++ toString l.number

/-- The composition that a line writes, with the built-in presets. -/
def composed (l : Line) : Except CompactError Composed :=
  Composition.composeText .builtin .usual l.text

/-- The diagram that a line writes in a compact text, with the built-in presets. -/
def parsed (l : Line) : Except CompactError Parsed := Compact.read .builtin l.text l.id

/-- Whether a line is read as a combination. -/
def isCombination (l : Line) : Bool := Composition.isCombination l.text

theorem exists_of_composed {l : Line} {c : Composed} (h : l.composed = .ok c) :
    ∃ combination : Combination,
      c = Composition.compose .builtin .usual combination.layout.defaultId combination := by
  unfold composed Composition.composeText at h
  cases hread : Composition.readCombination l.text.toList with
  | error e =>
    rw [hread] at h
    cases h
  | ok combination =>
    rw [hread] at h
    exact ⟨combination, (Except.ok.inj h).symm⟩

theorem isSome_composed {l : Line} {c : Composed} (h : l.composed = .ok c) :
    c.diagram.isSome = true := by
  obtain ⟨combination, rfl⟩ := exists_of_composed h
  exact Composition.isSome_compose_of_finished Registry.builtin_finished

/-- The diagram that a line writes. -/
def diagram (l : Line) : Except CompactError Diagram :=
  if l.isCombination then
    match h : l.composed with
    | .ok c => .ok (c.diagram.get (isSome_composed h))
    | .error e => .error e
  else l.parsed.map (·.diagram)

section

variable {l : Line} {e : CompactError}

theorem diagram_of_composed {c : Composed} {d : Diagram} (hl : l.isCombination = true)
    (h : l.composed = .ok c) (hd : c.diagram = some d) : l.diagram = .ok d := by
  rw [diagram, if_pos hl]
  split
  next c' hc' =>
    obtain rfl := Except.ok.inj (hc'.symm.trans h)
    rw [Option.get_of_eq_some _ hd]
  next hc' => cases hc'.symm.trans h

theorem diagram_of_not_composed (hl : l.isCombination = true) (h : l.composed = .error e) :
    l.diagram = .error e := by
  rw [diagram, if_pos hl]
  split
  next hc' => cases hc'.symm.trans h
  next e' he' => rw [Except.error.inj (he'.symm.trans h)]

theorem diagram_of_parsed (hl : l.isCombination = false) :
    l.diagram = l.parsed.map (·.diagram) := by
  rw [diagram, hl, if_neg Bool.false_ne_true]

end

/-- Every diagram of a sheet carries its picture. -/
theorem finished {l : Line} {d : Diagram} (h : l.diagram = .ok d) : d.IsFinished := by
  unfold diagram at h
  split at h
  · split at h
    next c hc =>
      obtain ⟨combination, rfl⟩ := exists_of_composed hc
      exact Composition.finished_of_compose (Except.ok.inj h ▸ (Option.some_get _).symm)
    next => cases h
  · cases hp : l.parsed with
    | error e =>
      rw [hp] at h
      cases h
    | ok p =>
      rw [hp] at h
      exact Except.ok.inj h ▸ Compact.read_finished Registry.builtin_finished hp

/-- The picture of the diagram that a line writes. -/
def picture (l : Line) : Except CompactError String :=
  match h : l.diagram with
  | .ok d => .ok (d.markup.get (finished h).isSome_markup)
  | .error e => .error e

theorem picture_of_diagram {l : Line} {d : Diagram} {markup : String} (h : l.diagram = .ok d)
    (hd : d.markup = some markup) : l.picture = .ok markup := by
  unfold picture
  split
  next d' hd' =>
    obtain rfl := Except.ok.inj (hd'.symm.trans h)
    rw [Option.get_of_eq_some _ hd]
  next hd' => cases hd'.symm.trans h

theorem picture_of_error {l : Line} {e : CompactError} (h : l.diagram = .error e) :
    l.picture = .error e := by
  unfold picture
  split
  next hd' => cases hd'.symm.trans h
  next e' he' => rw [Except.error.inj (he'.symm.trans h)]

end Line

end FreeBody.Sheet
