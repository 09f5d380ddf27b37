import FreeBody.Proofs.Preset.Builtin

/-!
# Presets that succeed under every id

The id that a generator is given names its diagram.  A generator is steady if the id has no say in
whether there is a diagram at all (`Generator.Steady`); the built-in ones are
(`Registry.builtin_steady`), and so are the fallback figures (`isSome_fallback?`).
-/

namespace FreeBody

/-- Whether a generator succeeds does not depend on the id. -/
def Generator.Steady (g : Generator) : Prop :=
  ∀ args id id', (g id args).result.isOk = (g id' args).result.isOk

/-- Whether all generators of a registry are steady. -/
def Registry.Steady (r : Registry) : Prop := ∀ name g, r.get? name = some g → g.Steady

/-! ## Registries -/

theorem Registry.Steady.isOk_generate? {r : Registry} (hr : r.Steady) (name : String)
    (args : List Argument) (id id' : String) :
    (r.generate? name id args).map Except.isOk = (r.generate? name id' args).map Except.isOk := by
  rw [generate?, generate?, Option.map_map, Option.map_map]
  refine Option.map_congr fun g hg => ?_
  exact hr name g hg args id id'

/-! ## Built-in presets -/

theorem Generator.result_ofResult (f : String → List Argument → Except GeneratorError Diagram)
    (id : String) (args : List Argument) : (Generator.ofResult f id args).result = f id args := by
  unfold Generator.ofResult
  split
  next h => rw [h]; rfl
  next h => rw [h]; rfl

theorem Generator.steady_ofResult
    {f : String → List Argument → Except GeneratorError Diagram}
    (h : ∀ args id id', (f id args).isOk = (f id' args).isOk) : (Generator.ofResult f).Steady := by
  intro args id id'
  rw [result_ofResult, result_ofResult]
  exact h args id id'

namespace Preset

/-- Two runs that read the same arguments end alike if what they make of them does. -/
theorem isOk_bind_congr {α β : Type} (x : Except GeneratorError α)
    {f f' : α → Except GeneratorError β} (h : ∀ a, (f a).isOk = (f' a).isOk) :
    (x >>= f).isOk = (x >>= f').isOk := by
  cases x with
  | error e => rfl
  | ok a => exact h a

variable (args : List Argument) (id id' : String)

theorem isOk_incline : (incline id args).isOk = (incline id' args).isOk :=
  isOk_bind_congr _ fun _ => isOk_bind_congr _ fun _ => isOk_bind_congr _ fun _ => rfl

theorem isOk_hanging : (hanging id args).isOk = (hanging id' args).isOk :=
  isOk_bind_congr _ fun _ => isOk_bind_congr _ fun _ => rfl

theorem isOk_pulley : (pulley id args).isOk = (pulley id' args).isOk :=
  isOk_bind_congr _ fun _ => isOk_bind_congr _ fun _ => rfl

theorem isOk_beam : (beam id args).isOk = (beam id' args).isOk := by
  refine isOk_bind_congr _ fun length => isOk_bind_congr _ fun _ => ?_
  split <;> rfl

theorem isSome_fallback? (name : String) :
    (fallback? name id args).isSome = (fallback? name id' args).isSome := by
  unfold fallback?
  split <;> rfl

end Preset

theorem Registry.builtin_steady : Registry.builtin.Steady :=
  forall_builtin (Generator.steady_ofResult Preset.isOk_incline)
    (Generator.steady_ofResult Preset.isOk_hanging) (Generator.steady_ofResult Preset.isOk_pulley)
    (Generator.steady_ofResult Preset.isOk_beam)

end FreeBody
