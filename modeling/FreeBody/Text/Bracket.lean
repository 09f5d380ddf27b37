/-!
# Balanced brackets

`toClosing` finds the bracket that closes an open one.
-/

namespace FreeBody.Text

/-- The text up to the bracket that closes the outermost of `depth + 1` open ones, and what
follows it. -/
def toClosing (opening closing : Char) : Nat → List Char → Option (List Char × List Char)
  | _, [] => none
  | depth, c :: rest =>
    if c = closing ∧ depth = 0 then some ([], rest)
    else
      let next :=
        if c = opening then depth + 1
        else if c = closing then depth - 1
        else depth
      (toClosing opening closing next rest).map fun p => (c :: p.1, p.2)

theorem toClosing_eq_append {opening closing : Char} {depth : Nat} {s content after : List Char}
    (h : toClosing opening closing depth s = some (content, after)) :
    s = content ++ closing :: after := by
  induction s generalizing depth content with
  | nil => simp [toClosing] at h
  | cons c rest ih =>
    simp only [toClosing] at h
    split at h
    next hc =>
      obtain ⟨rfl, rfl⟩ := Prod.mk.inj (Option.some.inj h)
      simp [hc.1]
    next =>
      obtain ⟨p, hp, hq⟩ := Option.map_eq_some_iff.1 h
      obtain ⟨rfl, rfl⟩ := Prod.mk.inj hq
      simp [ih hp]

theorem toClosing_length {opening closing : Char} {depth : Nat} {s content after : List Char}
    (h : toClosing opening closing depth s = some (content, after)) :
    content.length + after.length < s.length := by
  have := congrArg List.length (toClosing_eq_append h)
  simp only [List.length_append, List.length_cons] at this
  omega

end FreeBody.Text
