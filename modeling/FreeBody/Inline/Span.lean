/-!
# Delimited spans

In prose, a span stands between two double hashes on one line.  Spans are found from left to
right and do not overlap: each begins at the first `##` that has another one behind it on its
line, and ends at the nearest such one.  `pieces` cuts a text into prose and spans;
`flatMap_text_pieces` says that nothing is lost.
-/

namespace FreeBody.Inline

/-- A part of a text. -/
inductive Piece
  | prose (text : List Char)
  | span (inner : List Char)
  deriving DecidableEq

/-- A part as it is written. -/
def Piece.text : Piece → List Char
  | prose text => text
  | span inner => '#' :: '#' :: inner ++ ['#', '#']

/-- The text up to the next double hash on the line, and what follows it. -/
def toDelimiter? : List Char → Option (List Char × List Char)
  | '#' :: '#' :: rest => some ([], rest)
  | c :: rest =>
    if c = '\n' then none else (toDelimiter? rest).map fun p => (c :: p.1, p.2)
  | [] => none

/-- What stands in a span at the front of `s`, and what follows the span. -/
def span? : List Char → Option (List Char × List Char)
  | '#' :: '#' :: rest => toDelimiter? rest
  | _ => none

/-- Puts a character of prose in front of the pieces. -/
def addProse (c : Char) : List Piece → List Piece
  | .prose text :: rest => .prose (c :: text) :: rest
  | ps => .prose [c] :: ps

theorem toDelimiter?_eq_append {s inner after : List Char}
    (h : toDelimiter? s = some (inner, after)) : s = inner ++ '#' :: '#' :: after := by
  fun_induction toDelimiter? s generalizing inner with
  | case1 rest =>
    obtain ⟨rfl, rfl⟩ := Prod.mk.inj (Option.some.inj h)
    rfl
  | case2 => simp at h
  | case3 c rest _ _ ih =>
    obtain ⟨p, hp, hq⟩ := Option.map_eq_some_iff.1 h
    obtain ⟨rfl, rfl⟩ := Prod.mk.inj hq
    simp [← ih hp]
  | case4 => simp at h

theorem span?_eq_append {s inner after : List Char} (h : span? s = some (inner, after)) :
    s = (Piece.span inner).text ++ after := by
  unfold span? at h
  split at h
  next rest => simp [Piece.text, ← toDelimiter?_eq_append h]
  next => simp at h

theorem span?_length {s inner after : List Char} (h : span? s = some (inner, after)) :
    after.length < s.length := by
  have := congrArg List.length (span?_eq_append h)
  simp only [Piece.text, List.length_append, List.length_cons] at this
  omega

/-- The prose and the spans of a text, in order. -/
def pieces (s : List Char) : List Piece :=
  match _h : span? s with
  | some (inner, after) => .span inner :: pieces after
  | none =>
    match s with
    | [] => []
    | c :: rest => addProse c (pieces rest)
termination_by s.length
decreasing_by
  · exact span?_length _h
  · simp

theorem flatMap_text_addProse (c : Char) (ps : List Piece) :
    (addProse c ps).flatMap Piece.text = c :: ps.flatMap Piece.text := by
  unfold addProse
  split <;> simp [Piece.text]

/-- The pieces make up the text. -/
theorem flatMap_text_pieces (s : List Char) : (pieces s).flatMap Piece.text = s := by
  fun_induction pieces s with
  | case1 s inner after h ih => simp [ih, span?_eq_append h]
  | case2 => rfl
  | case3 c rest h ih => rw [flatMap_text_addProse, ih]

end FreeBody.Inline
