import FreeBody.Text.CaseTables

/-!
# Lower case

The lower form of a text, character by character, with two exceptions.  Capital I with a dot
above becomes two characters.  A capital sigma at the end of a word takes the final form: the
nearest character before it that is not passed over has a case, and the nearest one after it
has none.
-/

namespace FreeBody.Text

/-- The one-character lower form of `c`, or `c` itself. -/
def lowerChar (c : Char) : Char :=
  match lowercaseRuns.find? fun r =>
      r.first ≤ c.toNat && c.toNat ≤ r.last && (c.toNat - r.first) % r.step == 0 with
  | some r => Char.ofNat ((c.toNat : Int) + r.shift).toNat
  | none => c

/-- Whether the first character of `s` that is not passed over has a case. -/
def meetsCased (s : List Char) : Bool :=
  match s.dropWhile (inRanges caseIgnorableRanges) with
  | c :: _ => inRanges casedRanges c
  | [] => false

/-- The lower form of a character between `before` (nearest first) and `after`. -/
def lowerForm (before : List Char) (c : Char) (after : List Char) : List Char :=
  if c = 'Σ' then
    [if meetsCased before && !meetsCased after then 'ς' else 'σ']
  else if c = 'İ' then
    ['i', '\u0307']
  else
    [lowerChar c]

/-- The lower form of `s`, with `before` the characters in front of it, nearest first. -/
def lowerAfter (before : List Char) : List Char → List Char
  | [] => []
  | c :: rest => lowerForm before c rest ++ lowerAfter (c :: before) rest

/-- The lower form of a text. -/
def lowercase (s : String) : String := String.ofList (lowerAfter [] s.toList)

end FreeBody.Text
