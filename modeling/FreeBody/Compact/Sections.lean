import FreeBody.Compact.Error
import FreeBody.Compact.Token
import FreeBody.Text.Pieces

/-!
# Diagrams in sections

The custom form of a compact text has up to three sections between bars: points, forces and
options.  A token that is no element is left out with a warning, as is an option with an unknown
key; a force of an unknown kind stays without a kind.  At least one point is needed.  The canvas
has a fixed size, on which the grid ends (`gridEnds_readOptions`).
-/

namespace FreeBody

/-- A diagram, and what was left out of it. -/
structure Parsed where
  diagram : Diagram
  warnings : List Warning

namespace Compact

/-! ## Elements -/

/-- The point that is written. -/
def PointText.point? (t : PointText) : Option Point := do
  let x ← Decimal.read? t.x
  let y ← Decimal.read? t.y
  let label := (t.label.map Text.trim).filter (!·.isEmpty)
  pure ⟨String.ofList t.id, x, y, label.map String.ofList, .free⟩

/-- The force that is written, and a warning if its kind is unknown. -/
def ForceText.force? (t : ForceText) : Option (Force × List Warning) := do
  let magnitude ← Decimal.read? t.magnitude
  let angle ← Decimal.read? t.angle
  let force (kind : Option ForceKind) : Force :=
    .plain (String.ofList t.id) (String.ofList t.point) magnitude angle
      (String.ofList (Text.trim t.label)) kind
  match t.kind with
  | none => pure (force none, [])
  | some kind =>
    match Keyword.read (String.ofList kind) with
    | .ok k => pure (force (some k), [])
    | .error _ =>
      pure (force none, [.unknownForceKind (String.ofList t.id) (String.ofList kind)])

/-! ## Sections -/

/-- The points of a section. -/
def readPoints (s : List Char) : List Point × List Warning :=
  (points.tokens s).foldl
    (fun (ps, ws) token =>
      match token.element.bind PointText.point? with
      | some p => (ps ++ [p], ws)
      | none => (ps, ws ++ [.skippedPoint (String.ofList token.text)]))
    ([], [])

/-- The forces of a section. -/
def readForces (s : List Char) : List Force × List Warning :=
  (forces.tokens s).foldl
    (fun (fs, ws) token =>
      match token.element.bind ForceText.force? with
      | some (f, warnings) => (fs ++ [f], ws ++ warnings)
      | none => (fs, ws ++ [.skippedForce (String.ofList token.text)]))
    ([], [])

/-- Sets an option; only `true` switches it on. -/
def setOption (b : Builder) (o : OptionText) : Builder × List Warning :=
  let on := o.value = "true".toList
  let key := String.ofList o.key
  match key with
  | "axes" => (b.showAxes on, [])
  | "grid" => (b.showGrid on, [])
  | "angles" => (b.showAngles on, [])
  | _ => (b, [.unknownOption key])

/-- Sets the options of a section. -/
def readOptions (b : Builder) (s : List Char) : Builder × List Warning :=
  (options.tokens s).foldl
    (fun (b, ws) token =>
      match token.element with
      | some o =>
        let (b, warnings) := setOption b o
        (b, ws ++ warnings)
      | none => (b, ws ++ [.skippedOption (String.ofList token.text)]))
    (b, [])

theorem setOption_size (b : Builder) (o : OptionText) :
    (setOption b o).1.diagram.width = b.diagram.width ∧
      (setOption b o).1.diagram.height = b.diagram.height := by
  unfold setOption
  dsimp only
  split <;> exact ⟨rfl, rfl⟩

/-- Options leave the canvas as it is. -/
theorem readOptions_size (b : Builder) (s : List Char) :
    (readOptions b s).1.diagram.width = b.diagram.width ∧
      (readOptions b s).1.diagram.height = b.diagram.height := by
  refine List.foldlRecOn (motive := fun read : Builder × List Warning =>
    read.1.diagram.width = b.diagram.width ∧ read.1.diagram.height = b.diagram.height)
    _ _ ⟨rfl, rfl⟩ ?_
  rintro ⟨b', ws⟩ ⟨hwidth, hheight⟩ token -
  dsimp only
  split
  next o _ =>
    obtain ⟨hwidth', hheight'⟩ := setOption_size b' o
    exact ⟨hwidth'.trans hwidth, hheight'.trans hheight⟩
  next => exact ⟨hwidth, hheight⟩

/-- On the canvas of the custom form the grid ends. -/
theorem gridEnds_readOptions {b : Builder} (hwidth : b.diagram.width = 600)
    (hheight : b.diagram.height = 400) (s : List Char) :
    (readOptions b s).1.diagram.GridEnds {} := by
  obtain ⟨hwidth', hheight'⟩ := readOptions_size b s
  refine Diagram.gridEnds_of_ends ?_
  rw [hwidth'.trans hwidth, hheight'.trans hheight]
  exact ⟨Drawing.ends_usual.2.1, Drawing.ends_usual.1⟩

/-- The three sections of a text; a missing one is empty, and any further ones are not read. -/
def sections (s : List Char) : List Char × List Char × List Char :=
  let cut := (Text.pieces '|' s).map Text.trim
  (cut.getD 0 [], cut.getD 1 [], cut.getD 2 [])

/-- Reads the custom form. -/
def readSections (s : List Char) (id : String) : Except CompactError Parsed :=
  let (pointText, forceText, optionText) := sections s
  let (ps, pointWarnings) := readPoints pointText
  if ps.isEmpty then .error .noPoints
  else
    let (fs, forceWarnings) := readForces forceText
    let start := Builder.ofSize id 600 400
    let filled : Builder := ⟨{ start.diagram with points := ps, forces := fs }⟩
    let read := readOptions filled optionText
    .ok ⟨read.1.finish (gridEnds_readOptions rfl rfl optionText),
      pointWarnings ++ forceWarnings ++ read.2⟩

theorem readSections_finished {s : List Char} {id : String} {p : Parsed}
    (h : readSections s id = .ok p) : p.diagram.IsFinished := by
  unfold readSections at h
  dsimp only at h
  split at h
  · cases h
  · exact Except.ok.inj h ▸ rfl

end Compact

end FreeBody
