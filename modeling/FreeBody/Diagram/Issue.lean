import FreeBody.Decimal.Text
import FreeBody.Diagram.Basic
import FreeBody.Text.Blank

/-!
# Structural problems

`Diagram.issues` lists what is wrong with a diagram: a blank id, a canvas without a finite
positive size, ids used twice within their kind, and forces and moments at no point.
-/

namespace FreeBody

/-- The kinds of elements that have ids. -/
inductive ElementKind
  | point
  | force
  | moment
  deriving DecidableEq, Repr

def ElementKind.word : ElementKind → String
  | point => "point"
  | force => "force"
  | moment => "moment"

/-- A structural problem; forces and moments are named by their index. -/
inductive Issue
  | missingId
  | invalidWidth (width : Float)
  | invalidHeight (height : Float)
  | duplicateId (kind : ElementKind) (id : String)
  | danglingForce (index : Nat) (point : String)
  | danglingMoment (index : Nat) (point : String)

/-- The wording of a problem. -/
def Issue.message : Issue → String
  | missingId => "diagram must have an id"
  | invalidWidth width => "invalid width: " ++ Decimal.plain width
  | invalidHeight height => "invalid height: " ++ Decimal.plain height
  | duplicateId kind id => "duplicate " ++ kind.word ++ " id: " ++ id
  | danglingForce index point =>
    "force " ++ toString index ++ " references non-existent point: " ++ point
  | danglingMoment index point =>
    "moment " ++ toString index ++ " references non-existent point: " ++ point

/-- Whether a canvas may have this size. -/
def isExtent (size : Float) : Bool := size.isFinite && 0 < size

/-- The ids that occur before, one for every further occurrence. -/
def repeats (seen : List String) : List String → List String
  | [] => []
  | id :: rest => if seen.contains id then id :: repeats seen rest else repeats (id :: seen) rest

/-- Where, counting from `index`, a name is not among `known`. -/
def dangling (known : List String) (index : Nat) : List String → List (Nat × String)
  | [] => []
  | name :: rest =>
    if known.contains name then dangling known (index + 1) rest
    else (index, name) :: dangling known (index + 1) rest

namespace Diagram

/-- Problems of the diagram as a whole. -/
def canvasIssues (d : Diagram) : List Issue :=
  (if (Text.trim d.id.toList).isEmpty then [.missingId] else []) ++
    (if isExtent d.width then [] else [.invalidWidth d.width]) ++
    (if isExtent d.height then [] else [.invalidHeight d.height])

/-- Ids that are used again. -/
def duplicateIssues (d : Diagram) : List Issue :=
  (repeats [] (d.points.map (·.id))).map (.duplicateId .point) ++
    (repeats [] (d.forces.map (·.id))).map (.duplicateId .force) ++
    (repeats [] (d.moments.map (·.id))).map (.duplicateId .moment)

/-- Forces and moments at no point. -/
def danglingIssues (d : Diagram) : List Issue :=
  let known := d.points.map (·.id)
  (dangling known 0 (d.forces.map (·.point))).map (fun e => .danglingForce e.1 e.2) ++
    (dangling known 0 (d.moments.map (·.point))).map (fun e => .danglingMoment e.1 e.2)

/-- All problems; none means that the diagram is valid. -/
def issues (d : Diagram) : List Issue := d.canvasIssues ++ d.duplicateIssues ++ d.danglingIssues

end Diagram

end FreeBody
