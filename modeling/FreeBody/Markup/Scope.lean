/-!
# Style scopes

An id as the name in a style selector: a leading digit is written by its code and a blank, and a
character that has no place in a name stands behind a backslash.
-/

namespace FreeBody.Markup

/-- Whether `c` is one of `0` to `9`. -/
def isAsciiDigit (c : Char) : Bool := '0' ≤ c && c ≤ '9'

/-- Whether `c` is one of `a` to `z` and `A` to `Z`. -/
def isAsciiLetter (c : Char) : Bool := ('a' ≤ c && c ≤ 'z') || ('A' ≤ c && c ≤ 'Z')

/-- Whether `c` stands for itself in a selector name. -/
def isNameChar (c : Char) : Bool :=
  isAsciiDigit c || isAsciiLetter c || c == '-' || c == '_' || 128 ≤ c.toNat

/-- The form of a character in a selector name. -/
def nameChar (c : Char) : List Char := if isNameChar c then [c] else ['\\', c]

/-- The selector name for an id. -/
def scopeName : List Char → List Char
  | [] => []
  | c :: rest =>
    (if isAsciiDigit c then '\\' :: Nat.toDigits 16 c.toNat ++ [' '] else nameChar c) ++
      rest.flatMap nameChar

end FreeBody.Markup
