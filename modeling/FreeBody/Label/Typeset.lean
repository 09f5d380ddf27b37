import FreeBody.Label.Symbol
import FreeBody.Markup.Scope
import FreeBody.Markup.Tree
import FreeBody.Text.Alphanumeric
import FreeBody.Text.Bracket

/-!
# Typesetting labels

In a label, a backslash and a word may stand for a symbol, and `_` or `^` lowers or raises the
group behind it: text in balanced braces, or a run of alphanumeric characters.  A word that is
no symbol, and a mark without a group, stay as they are written.
-/

namespace FreeBody.Label

open Markup (Run Shift isAsciiLetter)

/-- The group at the front of `s`, and what follows it. -/
def group? : List Char → Option (List Char × List Char)
  | [] => none
  | c :: rest =>
    if c = '{' then Text.toClosing '{' '}' 0 rest
    else if Text.isAlphanumeric c then
      some (c :: rest.takeWhile Text.isAlphanumeric, rest.dropWhile Text.isAlphanumeric)
    else none

theorem group?_length {s content after : List Char} (h : group? s = some (content, after)) :
    content.length + after.length ≤ s.length := by
  cases s with
  | nil => simp [group?] at h
  | cons c rest =>
    simp only [group?] at h
    split at h
    · have := Text.toClosing_length h
      simp only [List.length_cons]
      omega
    · split at h
      · obtain ⟨rfl, rfl⟩ := Prod.mk.inj (Option.some.inj h)
        have := congrArg List.length
          (List.takeWhile_append_dropWhile (p := Text.isAlphanumeric) (l := rest))
        simp only [List.length_append] at this
        simp only [List.length_cons]
        omega
      · simp at h

/-- The shift that a mark asks for. -/
def shift? : Char → Option Shift
  | '_' => some .sub
  | '^' => some .super
  | _ => none

/-- A label as pieces of text. -/
def runs : List Char → List Run
  | [] => []
  | c :: rest =>
    if c = '\\' then
      let word := rest.takeWhile isAsciiLetter
      let read :=
        match symbol? (String.ofList word) with
        | some symbol => [symbol]
        | none => '\\' :: word
      read.map .char ++ runs (rest.dropWhile isAsciiLetter)
    else
      match shift? c with
      | none => .char c :: runs rest
      | some shift =>
        match _h : group? rest with
        | some (content, after) => .shifted shift (runs content) :: runs after
        | none => .char c :: runs rest
termination_by s => s.length
decreasing_by
  · have := (List.dropWhile_suffix (l := rest) isAsciiLetter).length_le
    simp only [List.length_cons]
    omega
  · simp
  · have := group?_length ‹_›
    simp only [List.length_cons]
    omega
  · have := group?_length ‹_›
    simp only [List.length_cons]
    omega
  · simp

/-- The markup of a label. -/
def typeset (label : String) : String := Markup.runsText (runs label.toList)

end FreeBody.Label
