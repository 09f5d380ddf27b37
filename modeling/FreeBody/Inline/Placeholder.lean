import FreeBody.Decimal.Text
import FreeBody.Text.Pieces

/-!
# Placeholders

A placeholder names a diagram by its number: `__FBD_0__`, `__FBD_1__`, …  `expand` cuts a text
at the placeholders that name one of the given diagrams; others stay in the text.
-/

namespace FreeBody.Inline

/-- The placeholder of the diagram `index`. -/
def placeholder (index : Nat) : String := "__FBD_" ++ toString index ++ "__"

/-- A part of an expanded text, with diagrams of a type `α`. -/
inductive Segment (α : Type)
  | text (text : List Char)
  | diagram (d : α)

/-- The digits of a placeholder at the front of `s`, and what follows it. -/
def token? (s : List Char) : Option (List Char × List Char) := do
  let body ← Text.dropPrefix? "__FBD_".toList s
  let ds := body.takeWhile Decimal.isDigit
  let after ← Text.dropPrefix? "__".toList (body.dropWhile Decimal.isDigit)
  if ds.isEmpty then none else pure (ds, after)

section

variable {α : Type}

/-- The diagram with the number that `ds` writes. -/
def named? (diagrams : List α) (ds : List Char) : Option α := diagrams[Decimal.value ds]?

/-- Puts text in front of segments. -/
def addText (s : List Char) : List (Segment α) → List (Segment α)
  | .text more :: rest => .text (s ++ more) :: rest
  | segments => .text s :: segments

end

theorem dropPrefix?_length {start s rest : List Char} (h : Text.dropPrefix? start s = some rest) :
    rest.length + start.length = s.length := by
  unfold Text.dropPrefix? at h
  split at h
  next hp =>
    obtain rfl := Option.some.inj h
    have := (List.isPrefixOf_iff_prefix.1 hp).length_le
    simp only [List.length_drop]
    omega
  next => simp at h

theorem token?_length {s ds after : List Char} (h : token? s = some (ds, after)) :
    after.length < s.length := by
  obtain ⟨body, hb, h⟩ := Option.bind_eq_some_iff.1 h
  obtain ⟨rest, hr, h⟩ := Option.bind_eq_some_iff.1 h
  split at h
  next => simp at h
  next =>
    obtain ⟨-, rfl⟩ := Prod.mk.inj (Option.some.inj h)
    have h₁ := dropPrefix?_length hb
    have h₂ := dropPrefix?_length hr
    have h₃ := (List.dropWhile_suffix (l := body) Decimal.isDigit).length_le
    have h₄ : 0 < "__FBD_".toList.length := by decide
    omega

/-- The segments of a text: diagrams for the placeholders that name one, and the text between
them. -/
def expand {α : Type} (diagrams : List α) (s : List Char) : List (Segment α) :=
  match _h : token? s with
  | some (ds, after) =>
    match named? diagrams ds with
    | some d => .diagram d :: expand diagrams after
    | none => addText (s.take (s.length - after.length)) (expand diagrams after)
  | none =>
    match s with
    | [] => []
    | c :: rest => addText [c] (expand diagrams rest)
termination_by s.length
decreasing_by
  · exact token?_length _h
  · exact token?_length _h
  · simp

end FreeBody.Inline
