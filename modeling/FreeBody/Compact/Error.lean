import FreeBody.Preset.Registry

/-!
# What can be wrong with a compact text

Errors end the reading of a text; warnings name what was left out of the diagram that was read.
A malformed text is reported with the byte offset at which reading stopped and with what was
expected there.
-/

namespace FreeBody

/-- What was expected where a preset call or a combination stopped making sense. -/
inductive Expectation
  | presetName
  | endOfText
  | combination
  | layoutTag
  | columns
  | segment
  | segmentOrEnd
  deriving DecidableEq, Repr

/-- The wording of an expectation. -/
def Expectation.text : Expectation → String
  | presetName => "expected preset_name"
  | endOfText => "expected EOI"
  | combination => "expected combination"
  | layoutTag => "expected series, parallel, grid, or compare"
  | columns => "expected columns"
  | segment => "expected segment"
  | segmentOrEnd => "expected EOI or segment"

/-- Why a compact text gives no diagram. -/
inductive CompactError
  | empty
  | malformedCall (offset : Nat) (expected : Expectation)
  | malformedCombination (offset : Nat) (expected : Expectation)
  | unknownPreset (name : String)
  | generator (name : String) (source : GeneratorError)
  | noPoints

/-- The wording of an error. -/
def CompactError.message : CompactError → String
  | empty => "empty notation"
  | malformedCall _ expected => "malformed preset call: " ++ expected.text
  | malformedCombination _ expected => "malformed combination: " ++ expected.text
  | unknownPreset name => "unknown preset: " ++ name
  | generator name _ => "preset `" ++ name ++ "` failed to generate a diagram"
  | noPoints => "notation declares no points"

/-- Something that was left out of a diagram. -/
inductive Warning
  | skippedPoint (token : String)
  | skippedForce (token : String)
  | skippedOption (token : String)
  | unknownOption (key : String)
  | unknownForceKind (force kind : String)

/-- The wording of a warning. -/
def Warning.message : Warning → String
  | skippedPoint token => "skipped malformed point `" ++ token ++ "`"
  | skippedForce token => "skipped malformed force `" ++ token ++ "`"
  | skippedOption token => "skipped malformed option `" ++ token ++ "`"
  | unknownOption key => "ignored unknown option `" ++ key ++ "`"
  | unknownForceKind force kind => "force `" ++ force ++ "` has unknown kind `" ++ kind ++ "`"

/-- The number of bytes of `whole` before its end part `rest`. -/
def byteOffset (whole rest : List Char) : Nat := Json.byteCount whole - Json.byteCount rest

end FreeBody
