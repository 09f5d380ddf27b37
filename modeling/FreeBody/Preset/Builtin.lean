import FreeBody.Preset.Registry

/-!
# Built-in presets

Four generators: a block on an incline, a hanging mass, two masses over a pulley and a beam on
two supports.  Arguments are checked; only the angle of the incline, the friction and the length
of the beam change the drawing.

The canvases have fixed sizes, on which the grid ends, so every figure is finished with its picture
(`Registry.builtin_finished`).
-/

namespace FreeBody.Preset

/-! ## Arguments -/

/-- The number at `index`, or `default` without one. -/
def numberAt (args : List Argument) (index : Nat) (default : Float) :
    Except GeneratorError Float :=
  match args[index]? with
  | none => .ok default
  | some a =>
    match a.toFloat? with
    | some x => .ok x
    | none => .error (.invalidArgument index .number)

/-- The truth value at `index`, or `default` without one. -/
def truthAt (args : List Argument) (index : Nat) (default : Bool) :
    Except GeneratorError Bool :=
  match args[index]? with
  | none => .ok default
  | some a =>
    match a.toBool? with
    | some b => .ok b
    | none => .error (.invalidArgument index .truth)

/-! ## Figures -/

/-- A block with its weight and a normal force at `angle`. -/
def blockFigure (id : String) (angle : Float) : Builder :=
  (Builder.ofSize id 600 400)
    |>.addPoint "block" 300 200 (some "Block")
    |>.addForce "weight" "block" 80 270 "mg" (some .weight)
    |>.addForce "normal" "block" 70 angle "N" (some .normal)
    |>.setBody (.rectangle 300 200 60 40)

/-- Friction on the block. -/
def addFriction (magnitude : Float) (b : Builder) : Builder :=
  b.addForce "friction" "block" magnitude 180 "f" (some .friction)

/-- A mass on a string. -/
def hangingFigure (id : String) : Builder :=
  (Builder.ofSize id 400 500)
    |>.addPoint "mass" 200 250 (some "M")
    |>.addForce "tension" "mass" 100 90 "T" (some .tension)
    |>.addForce "weight" "mass" 100 270 "mg" (some .weight)
    |>.setBody (.circle 200 250 30)

/-- Two masses on one string. -/
def pulleyFigure (id : String) : Builder :=
  (Builder.ofSize id 700 400)
    |>.addPoint "m1" 200 200 (some "m₁")
    |>.addPoint "m2" 500 200 (some "m₂")
    |>.addForce "t1" "m1" 80 90 "T" (some .tension)
    |>.addForce "w1" "m1" 80 270 "m₁g" (some .weight)
    |>.addForce "t2" "m2" 60 90 "T" (some .tension)
    |>.addForce "w2" "m2" 60 270 "m₂g" (some .weight)

/-- A beam of `length` with its supports at `left` and `right`. -/
def beamFigure (id : String) (left right length : Float) : Builder :=
  (Builder.ofSize id 700 400)
    |>.addPoint "left" left 200 (some "A")
    |>.addPoint "right" right 200 (some "B")
    |>.addForce "ra" "left" 60 90 "R_A" (some .normal)
    |>.addForce "rb" "right" 60 90 "R_B" (some .normal)
    |>.addForce "load" "left" 80 270 "W" (some .applied)
    |>.setBody (.rectangle 350 200 length 20)
    |>.showGrid true

theorem gridEnds_hangingFigure (id : String) : (hangingFigure id).diagram.GridEnds {} :=
  Diagram.gridEnds_of_hidden rfl

theorem gridEnds_pulleyFigure (id : String) : (pulleyFigure id).diagram.GridEnds {} :=
  Diagram.gridEnds_of_hidden rfl

/-- The beam is the one figure that shows the grid. -/
theorem gridEnds_beamFigure (id : String) (left right length : Float) :
    (beamFigure id left right length).diagram.GridEnds {} :=
  Diagram.gridEnds_of_ends ⟨Drawing.ends_usual.2.2, Drawing.ends_usual.1⟩

/-! ## Generators -/

/-- Arguments: angle, mass, friction. -/
def incline (id : String) (args : List Argument) : Except GeneratorError Diagram := do
  let angle ← numberAt args 0 30
  let _ ← numberAt args 1 10
  let friction ← truthAt args 2 true
  let block := blockFigure id (90 + angle)
  let figure := if friction then addFriction 30 block else block
  pure (figure.finish (Diagram.gridEnds_of_hidden (by cases friction <;> rfl)))

/-- Arguments: mass, tension. -/
def hanging (id : String) (args : List Argument) : Except GeneratorError Diagram := do
  let _ ← numberAt args 0 5
  let _ ← numberAt args 1 0
  pure ((hangingFigure id).finish (gridEnds_hangingFigure id))

/-- Arguments: the two masses. -/
def pulley (id : String) (args : List Argument) : Except GeneratorError Diagram := do
  let _ ← numberAt args 0 5
  let _ ← numberAt args 1 3
  pure (((pulleyFigure id).setBody (.circle 200 200 25)).finish (Diagram.gridEnds_of_hidden rfl))

/-- Arguments: length, load. -/
def beam (id : String) (args : List Argument) : Except GeneratorError Diagram := do
  let length ← numberAt args 0 400
  let _ ← numberAt args 1 100
  if length ≤ 0 then
    .error (.failed ("beam length must be positive, got " ++ Decimal.plain length))
  else
    pure ((beamFigure id (350 - length / 2) (350 + length / 2) length).finish
      (gridEnds_beamFigure id _ _ length))

/-- What runs first has a result. -/
theorem exists_of_bind_eq_ok {α β : Type} {x : Except GeneratorError α}
    {f : α → Except GeneratorError β} {b : β} (h : x >>= f = .ok b) :
    ∃ a, x = .ok a ∧ f a = .ok b := by
  cases x with
  | error e => cases h
  | ok a => exact ⟨a, rfl, h⟩

section

variable {id : String} {args : List Argument} {d : Diagram}

theorem incline_finished (h : incline id args = .ok d) : d.IsFinished := by
  obtain ⟨angle, -, h⟩ := exists_of_bind_eq_ok h
  obtain ⟨-, -, h⟩ := exists_of_bind_eq_ok h
  obtain ⟨friction, -, h⟩ := exists_of_bind_eq_ok h
  exact Except.ok.inj h ▸ rfl

theorem hanging_finished (h : hanging id args = .ok d) : d.IsFinished := by
  obtain ⟨-, -, h⟩ := exists_of_bind_eq_ok h
  obtain ⟨-, -, h⟩ := exists_of_bind_eq_ok h
  exact Except.ok.inj h ▸ rfl

theorem pulley_finished (h : pulley id args = .ok d) : d.IsFinished := by
  obtain ⟨-, -, h⟩ := exists_of_bind_eq_ok h
  obtain ⟨-, -, h⟩ := exists_of_bind_eq_ok h
  exact Except.ok.inj h ▸ rfl

theorem beam_finished (h : beam id args = .ok d) : d.IsFinished := by
  obtain ⟨length, -, h⟩ := exists_of_bind_eq_ok h
  obtain ⟨-, -, h⟩ := exists_of_bind_eq_ok h
  split at h
  · cases h
  · exact Except.ok.inj h ▸ rfl

end

end FreeBody.Preset

namespace FreeBody

/-- The registry of the built-in presets. -/
def Registry.builtin : Registry :=
  Registry.empty
    |>.register "incline" (.ofResult Preset.incline)
    |>.register "hanging" (.ofResult Preset.hanging)
    |>.register "pulley" (.ofResult Preset.pulley)
    |>.register "beam" (.ofResult Preset.beam)

/-- What holds of the four built-in generators holds of all generators of their registry. -/
theorem Registry.forall_builtin {Q : Generator → Prop} (hincline : Q (.ofResult Preset.incline))
    (hhanging : Q (.ofResult Preset.hanging)) (hpulley : Q (.ofResult Preset.pulley))
    (hbeam : Q (.ofResult Preset.beam)) : ∀ name g, Registry.builtin.get? name = some g → Q g := by
  have hempty : ∀ name g, Registry.empty.get? name = some g → Q g := nofun
  exact forall_register (forall_register (forall_register (forall_register hempty hincline
    "incline") hhanging "hanging") hpulley "pulley") hbeam "beam"

/-- The diagrams of the built-in presets carry their pictures. -/
theorem Registry.builtin_finished : Registry.builtin.Makes fun _ d => d.IsFinished := by
  refine makes_iff.2 (forall_builtin ?_ ?_ ?_ ?_)
  · exact Generator.makes_ofResult fun _ _ _ => Preset.incline_finished
  · exact Generator.makes_ofResult fun _ _ _ => Preset.hanging_finished
  · exact Generator.makes_ofResult fun _ _ _ => Preset.pulley_finished
  · exact Generator.makes_ofResult fun _ _ _ => Preset.beam_finished

end FreeBody
