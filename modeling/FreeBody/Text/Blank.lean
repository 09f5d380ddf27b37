/-!
# Blanks

Two notions of blank are in use.  `isBlank` is the Unicode White_Space property; trimming goes
by it.  `isSpace` is the narrower set that separates tokens in the compact forms: space, tab,
carriage return and line feed.
-/

namespace FreeBody.Text

/-- Whether `c` has the White_Space property. -/
def isBlank (c : Char) : Bool :=
  let n := c.toNat
  (9 ≤ n && n ≤ 13) || n == 0x20 || n == 0x85 || n == 0xA0 || n == 0x1680 ||
    (0x2000 ≤ n && n ≤ 0x200A) || n == 0x2028 || n == 0x2029 || n == 0x202F || n == 0x205F ||
    n == 0x3000

/-- Whether `c` separates tokens of a compact form. -/
def isSpace (c : Char) : Bool := c == ' ' || c == '\t' || c == '\r' || c == '\n'

theorem isBlank_of_isSpace {c : Char} (h : isSpace c = true) : isBlank c = true := by
  simp only [isSpace, Bool.or_eq_true, beq_iff_eq] at h
  rcases h with ((rfl | rfl) | rfl) | rfl <;> decide

/-! ## Trimming -/

/-- `s` without the blanks at its front. -/
def trimStart (s : List Char) : List Char := s.dropWhile isBlank

/-- `s` without the blanks at its end. -/
def trimEnd (s : List Char) : List Char := (s.reverse.dropWhile isBlank).reverse

/-- `s` without the blanks at its two ends. -/
def trim (s : List Char) : List Char := trimEnd (trimStart s)

/-- `s` without the token separators at its front. -/
def skipSpaces (s : List Char) : List Char := s.dropWhile isSpace

theorem skipSpaces_length_le (s : List Char) : (skipSpaces s).length ≤ s.length :=
  (List.dropWhile_suffix isSpace).length_le

end FreeBody.Text
