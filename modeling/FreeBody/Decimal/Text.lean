import FreeBody.Decimal.Shortest

/-!
# Decimal text

`plain` writes a double with the fewest digits that read back, never with an exponent and with
no point in a whole number.  `fixed` writes a given number of places, rounded half to even on
the exact value.  `read?` reads a decimal with optional sign, point and exponent to the nearest
double.
-/

namespace FreeBody.Decimal

/-- The decimal digits of `n`. -/
def digits (n : Nat) : List Char := Nat.toDigits 10 n

/-- `s` with zeros in front up to `width` characters. -/
def padZeros (width : Nat) (s : List Char) : List Char := List.replicate (width - s.length) '0' ++ s

/-- `n / 10 ^ places` in positional notation. -/
def pointed (n places : Nat) : List Char :=
  let s := padZeros (places + 1) (digits n)
  if places = 0 then s
  else s.take (s.length - places) ++ '.' :: s.drop (s.length - places)

/-- `n · 10 ^ power` in positional notation. -/
def positional (n : Nat) (power : Int) : List Char :=
  if 0 ≤ power then digits n ++ List.replicate power.toNat '0'
  else pointed n (-power).toNat

/-- The minus of a negative number. -/
def sign (negative : Bool) : List Char := if negative then ['-'] else []

/-- What is written for a value that is no finite number. -/
def wordOf : Binary → Option String
  | .nan => some "NaN"
  | .infinite negative => some (if negative then "-inf" else "inf")
  | .finite .. => none

/-- The shortest positional text of `x`. -/
def plain (x : Float) : String :=
  match Binary.ofFloat x with
  | .finite negative 0 _ => String.ofList (sign negative ++ ['0'])
  | .finite negative mantissa exponent =>
    let (n, power) := shortest .up mantissa exponent
    String.ofList (sign negative ++ positional n power)
  | other => (wordOf other).getD ""

/-- `x` with `places` decimal places. -/
def fixed (places : Nat) (x : Float) : String :=
  match Binary.ofFloat x with
  | .finite negative mantissa exponent =>
    let (up, down) := Binary.power exponent
    let n := divHalfEven (mantissa * up * Nat.pow 10 places) down
    String.ofList (sign negative ++ pointed n places)
  | other => (wordOf other).getD ""

/-! ## Reading -/

/-- Whether `c` is a decimal digit. -/
def isDigit (c : Char) : Bool := '0' ≤ c && c ≤ '9'

/-- The number that a run of digits writes. -/
def value (s : List Char) : Nat := s.foldl (fun n c => 10 * n + (c.toNat - 48)) 0

/-- The greatest 64-bit word. -/
def maxWord : Nat := 0xFFFFFFFFFFFFFFFF

/-- The sign at the front of `s`, and what follows it. -/
def takeSign : List Char → Bool × List Char
  | '-' :: rest => (true, rest)
  | '+' :: rest => (false, rest)
  | s => (false, s)

/-- The exponent that makes up all of `s`; none written counts as zero. -/
def readExponent? : List Char → Option Int
  | [] => some 0
  | c :: rest =>
    let (negative, ds) := takeSign rest
    if (c == 'e' || c == 'E') && !ds.isEmpty && ds.all isDigit then
      some (if negative then -(value ds : Int) else value ds)
    else none

/-- The double nearest to `n · 10 ^ power`.  With more than 310 digits before the point it is
infinite, and with more than 330 zeros behind the point it is zero. -/
def nearest (n : Nat) (power : Int) : Float :=
  let size := (digits n).length + power
  if n = 0 ∨ size < -330 then 0
  else if 310 < size then 1 / 0
  else Float.ofScientific n (power < 0) power.natAbs

/-- The double nearest to the decimal that makes up all of `s`. -/
def read? (s : List Char) : Option Float :=
  let (negative, body) := takeSign s
  let whole := body.takeWhile isDigit
  let rest := body.dropWhile isDigit
  let (places, tail) :=
    match rest with
    | '.' :: more => (more.takeWhile isDigit, more.dropWhile isDigit)
    | _ => ([], rest)
  if whole.isEmpty && places.isEmpty then none
  else
    (readExponent? tail).map fun exponent =>
      let size := nearest (value (whole ++ places)) (exponent - places.length)
      if negative then -size else size

end FreeBody.Decimal
