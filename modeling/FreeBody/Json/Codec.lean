import FreeBody.Json.Draft
import FreeBody.Json.Writer

/-!
# Codecs

A codec says how the values of a type are written as JSON and how they are read from a draft.
`store` and `load` are its two directions on text.
-/

namespace FreeBody.Json

/-- How a value is written and read. -/
structure Codec (α : Type) where
  write : α → Json
  read : Draft → Except Fault α

namespace Codec

/-- Texts. -/
def text : Codec String := ⟨.string, Draft.toText⟩

/-- Numbers; one that is not finite is written as `null`. -/
def real : Codec Float := ⟨fun x => .number (.real x), Draft.toReal⟩

/-- Truth values. -/
def flag : Codec Bool := ⟨.bool, Draft.toFlag⟩

/-- Values that have words. -/
def word {α : Type} (toWord : α → String) (ofWord? : String → Option α) : Codec α :=
  ⟨fun a => .string (toWord a), Draft.toWord ofWord?⟩

/-- Lists. -/
def list {α : Type} (c : Codec α) : Codec (List α) :=
  ⟨fun as => .array (as.map c.write), Draft.toList c.read⟩

/-- The text of a value. -/
def store {α : Type} (c : Codec α) (a : α) : String := (c.write a).pretty

/-- The value of a text. -/
def load {α : Type} (c : Codec α) (s : String) : Except Fault α := readAll c.read s.toList

end Codec

end FreeBody.Json
