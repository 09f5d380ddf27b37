import FreeBody.Json.Real
import FreeBody.Text.Blank

/-!
# Drafts of JSON documents

A `Draft` is what is known of a JSON text after reading it as far as its first fault: a tree
that ends where the text stops making sense.  A reader that walks the draft from left to right
meets a value of the wrong kind or the fault, whichever comes first.

A value that is only passed over is held to less than one that is taken in: unpaired surrogate
escapes and oversized numbers are let by.  So a string or number that cannot be taken in keeps
both verdicts.
-/

namespace FreeBody.Json

/-- Why a text is refused. -/
inductive Fault
  /-- The text is not JSON. -/
  | malformed
  /-- The text ends too early. -/
  | unfinished
  /-- The value is not one that is asked for. -/
  | mismatched
  deriving DecidableEq, Repr

/-- The class of a fault. -/
def Fault.category : Fault → String
  | .malformed => "syntax"
  | .unfinished => "eof"
  | .mismatched => "data"

/-- A string or number: its value, or why it cannot be taken in and, if it cannot, passed over. -/
inductive Scalar (α : Type)
  | value (a : α)
  | broken (taken : Fault) (passed : Option Fault)

/-- What is known of a JSON text up to its first fault. -/
inductive Draft
  | null
  | bool (b : Bool)
  | number (n : Scalar Number)
  | string (s : Scalar String)
  | array (items : List Draft) (ending : Option Fault)
  | object (members : List (Scalar String × Draft)) (ending : Option Fault)
  /-- An object whose first key is no string. -/
  | unkeyed (key : Draft)
  /-- A word that breaks off; whether it begins like `null`. -/
  | brokenWord (null : Bool) (fault : Fault)
  /-- Nothing that begins a value. -/
  | absent (fault : Fault)

/-! ## Strings -/

/-- The value of a hexadecimal digit. -/
def hexDigit? (c : Char) : Option Nat :=
  if '0' ≤ c && c ≤ '9' then some (c.toNat - 48)
  else if 'a' ≤ c && c ≤ 'f' then some (c.toNat - 87)
  else if 'A' ≤ c && c ≤ 'F' then some (c.toNat - 55)
  else none

/-- The code of four hexadecimal digits. -/
def hexCode? (a b c d : Char) : Option Nat := do
  pure (((← hexDigit? a) * 16 + (← hexDigit? b)) * 256 + (← hexDigit? c) * 16 + (← hexDigit? d))

/-- The number of bytes of `s`. -/
def byteCount : List Char → Nat
  | [] => 0
  | c :: rest => c.utf8Size + byteCount rest

/-- The string being read: its characters so far in reverse and a leading surrogate that waits
for its pair; nothing after it turned out to be one that cannot be taken in. -/
structure OpenString where
  chars : Option (List Char)
  lead : Option Nat

namespace OpenString

/-- Adds a character; a surrogate that waits is then left unpaired. -/
def push (o : OpenString) (c : Char) : OpenString :=
  match o.lead with
  | none => ⟨o.chars.map (c :: ·), none⟩
  | some _ => ⟨none, none⟩

/-- Adds a 16-bit unit. -/
def pushUnit (o : OpenString) (unit : Nat) : OpenString :=
  let trails := 0xDC00 ≤ unit && unit ≤ 0xDFFF
  match o.lead with
  | some lead =>
    if trails then
      ⟨o.chars.map (Char.ofNat (0x10000 + (lead - 0xD800) * 0x400 + (unit - 0xDC00)) :: ·), none⟩
    else ⟨none, none⟩
  | none =>
    if trails then ⟨none, none⟩
    else if 0xD800 ≤ unit && unit ≤ 0xDBFF then ⟨o.chars, some unit⟩
    else ⟨o.chars.map (Char.ofNat unit :: ·), none⟩

/-- The string at its closing quote. -/
def close (o : OpenString) : Scalar String :=
  match o.chars, o.lead with
  | some chars, none => .value (String.ofList chars.reverse)
  | _, _ => .broken .malformed none

/-- The string at a fault. -/
def fail (o : OpenString) (fault : Fault) : Scalar String :=
  match o.chars with
  | some _ => .broken fault (some fault)
  | none => .broken .malformed (some fault)

end OpenString

/-- The character that a one-letter escape stands for. -/
def escaped? : Char → Option Char
  | '"' => some '"'
  | '\\' => some '\\'
  | '/' => some '/'
  | 'b' => some '\x08'
  | 'f' => some '\x0c'
  | 'n' => some '\n'
  | 'r' => some '\r'
  | 't' => some '\t'
  | _ => none

/-- Reads a string behind its opening quote; with it what follows, unless it ends in a fault. -/
def scanString (o : OpenString) : List Char → Scalar String × Option (List Char)
  | [] => (o.fail .unfinished, none)
  | '"' :: rest => (o.close, some rest)
  | '\\' :: 'u' :: a :: b :: c :: d :: rest =>
    match hexCode? a b c d with
    | some unit => scanString (o.pushUnit unit) rest
    | none => (o.fail .malformed, none)
  | '\\' :: 'u' :: rest =>
    (o.fail (if byteCount rest < 4 then .unfinished else .malformed), none)
  | '\\' :: e :: rest =>
    match escaped? e with
    | some c => scanString (o.push c) rest
    | none => (o.fail .malformed, none)
  | ['\\'] => (o.fail .unfinished, none)
  | c :: rest =>
    if c.toNat < 32 then (o.fail .malformed, none)
    else scanString (o.push c) rest

/-! ## Numbers -/

/-- A number that breaks off: at the end of the text it is unfinished for a reader that takes it
in and malformed for one that passes over it. -/
def brokenNumber (rest : List Char) : Scalar Number × Option (List Char) :=
  (.broken (if rest.isEmpty then .unfinished else .malformed) (some .malformed), none)

/-- The number with these parts; one too large cannot be taken in. -/
def finishNumber (negative : Bool) (whole : List Char) (places : Option (List Char))
    (exponent : Option (Bool × List Char)) (rest : List Char) :
    Scalar Number × Option (List Char) :=
  match readNumber? negative whole places exponent with
  | some n => (.value n, some rest)
  | none => (.broken .malformed none, some rest)

/-- Reads an exponent, if one follows. -/
def scanExponent (negative : Bool) (whole : List Char) (places : Option (List Char))
    (s : List Char) : Scalar Number × Option (List Char) :=
  match s with
  | c :: after =>
    if c == 'e' || c == 'E' then
      let (down, body) := Decimal.takeSign after
      let ds := body.takeWhile Decimal.isDigit
      let rest := body.dropWhile Decimal.isDigit
      if ds.isEmpty then brokenNumber rest
      else finishNumber negative whole places (some (down, ds)) rest
    else finishNumber negative whole places none s
  | [] => finishNumber negative whole places none s

/-- Reads places and exponent, if they follow. -/
def scanPlaces (negative : Bool) (whole : List Char) (s : List Char) :
    Scalar Number × Option (List Char) :=
  match s with
  | '.' :: body =>
    let ds := body.takeWhile Decimal.isDigit
    let rest := body.dropWhile Decimal.isDigit
    if ds.isEmpty then brokenNumber rest
    else scanExponent negative whole (some ds) rest
  | _ => scanExponent negative whole none s

/-- Reads a number behind its sign.  A leading zero stands alone. -/
def scanNumber (negative : Bool) (s : List Char) : Scalar Number × Option (List Char) :=
  let whole := s.takeWhile Decimal.isDigit
  let rest := s.dropWhile Decimal.isDigit
  match whole with
  | [] => brokenNumber rest
  | '0' :: _ :: _ => (.broken .malformed (some .malformed), none)
  | _ => scanPlaces negative whole rest

/-! ## Words -/

/-- Reads the letters `word`. -/
def scanWord (whenRead : Draft) (null : Bool) : List Char → List Char → Draft × Option (List Char)
  | [], rest => (whenRead, some rest)
  | _ :: _, [] => (.brokenWord null .unfinished, none)
  | w :: word, c :: rest =>
    if w = c then scanWord whenRead null word rest else (.brokenWord null .malformed, none)

/-! ## Values -/

mutual

/-- Reads a value; with it what follows, unless it ends in a fault.  Every step down the fuel
reads a character or enters a list. -/
def scan : Nat → List Char → Draft × Option (List Char)
  | 0, _ => (.absent .unfinished, none)
  | fuel + 1, s =>
    match Text.skipSpaces s with
    | [] => (.absent .unfinished, none)
    | 'n' :: rest => scanWord .null true ['u', 'l', 'l'] rest
    | 't' :: rest => scanWord (.bool true) false ['r', 'u', 'e'] rest
    | 'f' :: rest => scanWord (.bool false) false ['a', 'l', 's', 'e'] rest
    | '"' :: rest =>
      let (read, after) := scanString ⟨some [], none⟩ rest
      (.string read, after)
    | '-' :: rest =>
      let (read, after) := scanNumber true rest
      (.number read, after)
    | '[' :: rest =>
      let (items, ending, after) := scanItems fuel true rest
      (.array items ending, after)
    | '{' :: rest =>
      match Text.skipSpaces rest with
      | [] => (.object [] (some .unfinished), none)
      | '"' :: _ | '}' :: _ =>
        let (members, ending, after) := scanMembers fuel true rest
        (.object members ending, after)
      | other => (.unkeyed (scan fuel other).1, none)
    | c :: rest =>
      if Decimal.isDigit c then
        let (read, after) := scanNumber false (c :: rest)
        (.number read, after)
      else (.absent .malformed, none)

/-- Reads the items of an array up to its bracket. -/
def scanItems : Nat → Bool → List Char → List Draft × Option Fault × Option (List Char)
  | 0, _, _ => ([], some .unfinished, none)
  | fuel + 1, first, s =>
    match Text.skipSpaces s with
    | [] => ([], some .unfinished, none)
    | ']' :: rest => ([], none, some rest)
    | c :: rest =>
      if !first && c != ',' then ([], some .malformed, none)
      else
        match scan fuel (if first then c :: rest else rest) with
        | (item, none) => ([item], none, none)
        | (item, some after) =>
          let (items, ending, final) := scanItems fuel false after
          (item :: items, ending, final)

/-- Reads the members of an object up to its brace. -/
def scanMembers : Nat → Bool → List Char →
    List (Scalar String × Draft) × Option Fault × Option (List Char)
  | 0, _, _ => ([], some .unfinished, none)
  | fuel + 1, first, s =>
    match Text.skipSpaces s with
    | [] => ([], some .unfinished, none)
    | '}' :: rest => ([], none, some rest)
    | c :: rest =>
      if !first && c != ',' then ([], some .malformed, none)
      else
        match Text.skipSpaces (if first then c :: rest else rest) with
        | [] => ([(.broken .unfinished (some .unfinished), .absent .unfinished)], none, none)
        | '"' :: text =>
          match scanString ⟨some [], none⟩ text with
          | (key, none) => ([(key, .absent .unfinished)], none, none)
          | (key, some after) =>
            match Text.skipSpaces after with
            | [] => ([(key, .absent .unfinished)], none, none)
            | ':' :: body =>
              match scan fuel body with
              | (value, none) => ([(key, value)], none, none)
              | (value, some more) =>
                let (members, ending, final) := scanMembers fuel false more
                ((key, value) :: members, ending, final)
            | _ => ([(key, .absent .malformed)], none, none)
        | _ => ([(.broken .malformed (some .malformed), .absent .malformed)], none, none)

end

/-- The draft of a text, and what follows the value. -/
def draft (s : List Char) : Draft × Option (List Char) := scan (2 * s.length + 2) s

/-! ## Passing values over -/

mutual

/-- The fault met when a value is passed over. -/
def Draft.fault? : Draft → Option Fault
  | .number (.broken _ passed) => passed
  | .string (.broken _ passed) => passed
  | .array items ending => (itemsFault? items).or ending
  | .object members ending => (membersFault? members).or ending
  | .unkeyed _ => some .malformed
  | .brokenWord _ fault => some fault
  | .absent fault => some fault
  | _ => none

/-- The first fault among the items of an array. -/
def itemsFault? : List Draft → Option Fault
  | [] => none
  | d :: rest => d.fault?.or (itemsFault? rest)

/-- The first fault among the members of an object, a key before its value. -/
def membersFault? : List (Scalar String × Draft) → Option Fault
  | [] => none
  | (.broken _ (some fault), _) :: _ => some fault
  | (_, d) :: rest => d.fault?.or (membersFault? rest)

end

/-! ## Taking values in -/

namespace Draft

/-- Why a value that is not of the kind asked for is refused: a scalar is read first. -/
def refusal : Draft → Fault
  | .number (.broken taken _) => taken
  | .string (.broken taken _) => taken
  | .brokenWord _ fault => fault
  | .absent fault => fault
  | _ => .mismatched

/-- A string. -/
def toText : Draft → Except Fault String
  | .string (.value s) => .ok s
  | d => .error d.refusal

/-- A number, as a double. -/
def toReal : Draft → Except Fault Float
  | .number (.value n) => .ok n.toFloat
  | d => .error d.refusal

/-- A truth value. -/
def toFlag : Draft → Except Fault Bool
  | .bool b => .ok b
  | d => .error d.refusal

/-- A value or `null`. -/
def toOption {α : Type} (read : Draft → Except Fault α) : Draft → Except Fault (Option α)
  | .null => .ok none
  | .brokenWord true fault => .error fault
  | d => some <$> read d

/-- A list; its items are read in order, then its end. -/
def toList {α : Type} (read : Draft → Except Fault α) : Draft → Except Fault (List α)
  | .array items ending => do
    let values ← items.mapM read
    match ending with
    | none => .ok values
    | some fault => .error fault
  | d => .error d.refusal

/-- One of a set of words: a string, or an object with the word as its one key and `null`. -/
def toWord {α : Type} (word? : String → Option α) : Draft → Except Fault α
  | .string (.value s) =>
    match word? s with
    | some a => .ok a
    | none => .error .mismatched
  | .string (.broken taken _) => .error taken
  | .object ((.broken taken _, _) :: _) _ => .error taken
  | .object ((.value s, value) :: more) ending =>
    match word? s, value, more, ending with
    | none, _, _, _ => .error .mismatched
    | some a, .null, [], none => .ok a
    | some _, .null, [], some fault => .error fault
    | some _, .null, _ :: _, _ => .error .malformed
    | some _, d, _, _ => .error d.refusal
  | .object [] ending => .error (ending.getD .malformed)
  | .unkeyed key => .error key.refusal
  | .absent fault => .error fault
  | _ => .error .malformed

end Draft

/-- Reads a value that makes up all of `s`. -/
def readAll {α : Type} (read : Draft → Except Fault α) (s : List Char) : Except Fault α :=
  let (d, rest) := draft s
  match read d with
  | .ok a => if (Text.skipSpaces (rest.getD [])).isEmpty then .ok a else .error .malformed
  | .error fault => .error fault

end FreeBody.Json
