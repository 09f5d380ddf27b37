import FreeBody.Compact.Reader
import FreeBody.Composition.Assembly
import FreeBody.Inline.Placeholder
import FreeBody.Inline.Span

/-!
# Diagrams in prose

Each span of a text that holds a combination or a compact text is replaced by a placeholder; its
diagram is kept, numbered from zero.  A span that holds neither stays as it is and takes no
number.  Expanding the text again puts the pictures in.
-/

namespace FreeBody

/-- What diagrams in prose are read with. -/
structure Inline where
  registry : Registry
  spacing : Composition.Spacing Float := .usual

/-- A text with placeholders, and the diagrams they stand for.  A placeholder stands for none if the
composition in its span is never finished. -/
structure Extracted where
  cleanText : List Char
  diagrams : List (Option Diagram)
  placeholders : List String

namespace Inline

/-- The diagram that a span holds.  A combination that cannot be read is tried as a compact
text. -/
def readSpan (r : Inline) (inner : List Char) (index : Nat) :
    Except CompactError (Option Diagram) :=
  let text := String.ofList (Text.trim inner)
  let combination? :=
    if Composition.isCombination text then
      (Composition.readCombination text.toList).toOption
    else none
  match combination? with
  | some c =>
    let id := "inline-combo-" ++ toString index
    .ok (Composition.compose r.registry r.spacing id c).diagram
  | none =>
    (Compact.read r.registry text ("inline-fbd-" ++ toString index)).map fun p => some p.diagram

/-! ## Extraction -/

/-- A piece of a text after reading: text that stays, or a diagram with its number. -/
inductive Resolved
  | text (s : List Char)
  | diagram (index : Nat) (d : Option Diagram)

/-- The pieces, read one after the other; the next diagram gets the number `index`. -/
def resolve (r : Inline) (index : Nat) : List Piece → List Resolved
  | [] => []
  | .prose text :: rest => .text text :: resolve r index rest
  | .span inner :: rest =>
    match r.readSpan inner index with
    | .ok d => .diagram index d :: resolve r (index + 1) rest
    | .error _ => .text (Piece.span inner).text :: resolve r index rest

/-- A resolved piece in the clean text. -/
def Resolved.clean : Resolved → List Char
  | text s => s
  | diagram index _ => (placeholder index).toList

/-- The diagram of a resolved piece. -/
def Resolved.diagram? : Resolved → Option (Option Diagram)
  | text _ => none
  | diagram _ d => some d

/-- The placeholder of a resolved piece. -/
def Resolved.placeholder? : Resolved → Option String
  | text _ => none
  | diagram index _ => some (placeholder index)

/-- Takes the diagrams out of a text. -/
def extract (r : Inline) (text : String) : Extracted :=
  let read := resolve r 0 (pieces text.toList)
  { cleanText := read.flatMap Resolved.clean
    diagrams := read.filterMap Resolved.diagram?
    placeholders := read.filterMap Resolved.placeholder? }

/-! ## Checking -/

/-- Whether a text has spans. -/
def hasSpans (text : String) : Bool :=
  (pieces text.toList).any fun p =>
    match p with
    | .span _ => true
    | .prose _ => false

/-- What is wrong with a span. -/
def spanProblem? (r : Inline) : Piece → Option String
  | .prose _ => none
  | .span inner =>
    match r.readSpan inner 0 with
    | .ok _ => none
    | .error e =>
      some ("invalid diagram `" ++ String.ofList (Text.trim inner) ++ "`: " ++ e.message)

/-- What is wrong with the spans of a text, one message for each that holds no diagram. -/
def problems (r : Inline) (text : String) : List String :=
  (pieces text.toList).filterMap r.spanProblem?

end Inline

/-! ## Expansion -/

namespace Extracted

/-- The clean text cut at its placeholders. -/
def segments (e : Extracted) : List (Inline.Segment (Option Diagram)) :=
  Inline.expand e.diagrams e.cleanText

/-- A segment of the rendered text, if its picture is ever finished. -/
def segmentText : Inline.Segment (Option Diagram) → Option String
  | .text s => some (String.ofList s)
  | .diagram d => d.bind Diagram.markup

/-- The text with pictures in place of the placeholders, if they are all finished. -/
def render (e : Extracted) : Option String := (e.segments.mapM segmentText).map String.join

end Extracted

end FreeBody
