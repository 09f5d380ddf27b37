import FreeBody.Diagram.Builder
import FreeBody.Preset.Argument
import FreeBody.Text.Lowercase
import FreeBody.Text.Quoted

/-!
# Presets

A preset is a named generator of diagrams.  A registry holds generators by the lower form of
their names, sorted, at most one a name: registering under a name again replaces the generator.
-/

namespace FreeBody

/-- What an argument should have been. -/
inductive Expected
  | number
  | truth
  deriving DecidableEq, Repr

def Expected.text : Expected → String
  | number => "a number"
  | truth => "true or false"

/-- Why a generator made no diagram. -/
inductive GeneratorError
  | invalidArgument (index : Nat) (expected : Expected)
  | failed (reason : String)
  | panicked (reason : String)

/-- The wording of an error. -/
def GeneratorError.message : GeneratorError → String
  | invalidArgument index expected =>
    "argument " ++ toString index ++ " should be " ++ expected.text
  | failed reason => reason
  | panicked reason => "generator panicked: " ++ reason

/-- How a run of a generator ends; one that breaks off may leave a text. -/
inductive Outcome
  | made (d : Diagram)
  | refused (e : GeneratorError)
  | brokeOff (reason : Option String)

/-- The result of a run. -/
def Outcome.result : Outcome → Except GeneratorError Diagram
  | made d => .ok d
  | refused e => .error e
  | brokeOff reason => .error (.panicked (reason.getD "unknown panic"))

/-- Makes a diagram with an id from arguments. -/
abbrev Generator := (id : String) → (args : List Argument) → Outcome

/-- A generator from a function that never breaks off. -/
def Generator.ofResult
    (f : String → List Argument → Except GeneratorError Diagram) : Generator :=
  fun id args =>
    match f id args with
    | .ok d => .made d
    | .error e => .refused e

/-- Generators by name. -/
structure Registry where
  entries : List (String × Generator)

namespace Registry

/-- The registry without generators. -/
def empty : Registry := ⟨[]⟩

/-- Sorted entries with the generator of `name` set. -/
def insert (name : String) (g : Generator) :
    List (String × Generator) → List (String × Generator)
  | [] => [(name, g)]
  | (n, h) :: rest =>
    if name < n then (name, g) :: (n, h) :: rest
    else if name = n then (name, g) :: rest
    else (n, h) :: insert name g rest

/-- Registers a generator in place of any of the same name. -/
def register (r : Registry) (name : String) (g : Generator) : Registry :=
  ⟨insert (Text.lowercase name) g r.entries⟩

/-- The generator called `name`, in any case of the letters. -/
def get? (r : Registry) (name : String) : Option Generator :=
  r.entries.lookup (Text.lowercase name)

/-- Whether there is a generator called `name`. -/
def contains (r : Registry) (name : String) : Bool := (r.get? name).isSome

/-- The names, in order. -/
def names (r : Registry) : List String := r.entries.map (·.1)

/-- The number of generators. -/
def size (r : Registry) : Nat := r.entries.length

/-- Runs the generator called `name`; nothing if there is none. -/
def generate? (r : Registry) (name id : String) (args : List Argument) :
    Option (Except GeneratorError Diagram) :=
  (r.get? name).map fun g => (g id args).result

/-- The registry in a report. -/
def report (r : Registry) : String :=
  "PresetRegistry \x7b names: [" ++ String.intercalate ", " (r.names.map Text.quoted) ++ "] \x7d"

/-! ## Asking after registering -/

section

variable {name key : String} {g : Generator} {entries : List (String × Generator)}

theorem lookup_cons_eq_ite (key : String) (e : String × Generator)
    (rest : List (String × Generator)) :
    (e :: rest).lookup key = if key = e.1 then some e.2 else rest.lookup key := by
  rw [List.lookup_cons]
  by_cases hkey : key = e.1
  · rw [if_pos hkey, beq_iff_eq.2 hkey]
  · rw [if_neg hkey, beq_eq_false_iff_ne.2 hkey]

/-- Only the entry of `name` changes, wherever it stands. -/
theorem lookup_insert (name key : String) (g : Generator) (entries : List (String × Generator)) :
    (insert name g entries).lookup key = if key = name then some g else entries.lookup key := by
  induction entries with
  | nil => exact lookup_cons_eq_ite key (name, g) []
  | cons e rest ih =>
    rw [insert]
    split
    · exact lookup_cons_eq_ite key (name, g) _
    · split
      next heq =>
        -- the generator of this name is replaced
        rw [lookup_cons_eq_ite, lookup_cons_eq_ite, heq]
        split <;> rfl
      next hne =>
        rw [lookup_cons_eq_ite, lookup_cons_eq_ite, ih]
        split
        next hkey => rw [if_neg (hkey ▸ Ne.symm hne)]
        next => rfl

end

theorem get?_register (r : Registry) (name query : String) (g : Generator) :
    (r.register name g).get? query =
      if Text.lowercase query = Text.lowercase name then some g else r.get? query :=
  lookup_insert _ _ _ _

/-- What holds of all generators of a registry, and of one that is registered, holds of all. -/
theorem forall_register {Q : Generator → Prop} {r : Registry}
    (hr : ∀ name g, r.get? name = some g → Q g) {g : Generator} (hg : Q g) (name : String) :
    ∀ key h, (r.register name g).get? key = some h → Q h := by
  intro key h hget
  rw [get?_register] at hget
  split at hget
  · exact Option.some.inj hget ▸ hg
  · exact hr key h hget

end Registry

/-! ## What is made with a registry -/

/-- Whether every diagram that a generator makes satisfies `P` with the id that is asked for. -/
def Generator.Makes (P : String → Diagram → Prop) (g : Generator) : Prop :=
  ∀ id args d, (g id args).result = .ok d → P id d

/-- Whether every diagram that is made with a registry satisfies `P` with the id that is asked
for. -/
def Registry.Makes (P : String → Diagram → Prop) (r : Registry) : Prop :=
  ∀ name id args d, r.generate? name id args = some (.ok d) → P id d

section

variable {P : String → Diagram → Prop}

theorem Registry.empty_makes : Registry.empty.Makes P := by
  intro name id args d h
  rw [generate?, get?, empty, List.lookup_nil] at h
  cases h

theorem Registry.makes_iff {r : Registry} :
    r.Makes P ↔ ∀ name g, r.get? name = some g → g.Makes P := by
  constructor
  · intro h name g hget id args d hresult
    exact h name id args d (Option.map_eq_some_iff.2 ⟨g, hget, hresult⟩)
  · intro h name id args d hrun
    obtain ⟨g, hget, hresult⟩ := Option.map_eq_some_iff.1 hrun
    exact h name g hget id args d hresult

theorem Registry.Makes.register {r : Registry} (hr : r.Makes P) {g : Generator} (hg : g.Makes P)
    (name : String) : (r.register name g).Makes P :=
  makes_iff.2 (forall_register (makes_iff.1 hr) hg name)

/-- A generator from a function makes what the function returns. -/
theorem Generator.makes_ofResult {f : String → List Argument → Except GeneratorError Diagram}
    (h : ∀ id args d, f id args = .ok d → P id d) : (Generator.ofResult f).Makes P := by
  intro id args d hresult
  unfold Generator.ofResult at hresult
  split at hresult
  next made hmade =>
    obtain rfl := Except.ok.inj hresult
    exact h id args _ hmade
  next => cases hresult

end

end FreeBody
