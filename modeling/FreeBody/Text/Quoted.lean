import FreeBody.Text.PrintTables

/-!
# Quoted text

A text in double quotes for a report: the quote, the backslash and the common controls get a
backslash escape, and a character without a visible form of its own is spelled by its code.
-/

namespace FreeBody.Text

/-- The code of `c` as `\u{…}` in lower-case hexadecimal. -/
def codeEscape (c : Char) : List Char :=
  ['\\', 'u', '\x7b'] ++ Nat.toDigits 16 c.toNat ++ ['\x7d']

/-- The form of `c` inside a quoted text. -/
def quotedChar (c : Char) : List Char :=
  if c = '\x00' then ['\\', '0']
  else if c = '\t' then ['\\', 't']
  else if c = '\r' then ['\\', 'r']
  else if c = '\n' then ['\\', 'n']
  else if c = '\\' then ['\\', '\\']
  else if c = '"' then ['\\', '"']
  else if inRanges graphemeExtendRanges c || inRanges unprintableRanges c then codeEscape c
  else [c]

/-- `s` in double quotes. -/
def quoted (s : String) : String :=
  String.ofList ('"' :: s.toList.flatMap quotedChar ++ ['"'])

end FreeBody.Text
