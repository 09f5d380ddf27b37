import FreeBody.Decimal.Text
import FreeBody.Json.Value

/-!
# Numbers in JSON text

`realText` writes a double with the fewest digits: positional, with at least one place, while
the point falls within or near the digits, and with an exponent beyond that.  A value that is no
finite number becomes `null`.

Reading keeps as many leading digits as fit a 64-bit word and scales by a power of ten, each
step rounded to a double; digits that do not fit are dropped.  A value too large is refused.
-/

namespace FreeBody.Json

open Decimal

/-! ## Writing -/

/-- An exponent with its sign. -/
def exponentText (e : Int) : List Char :=
  'e' :: (if e < 0 then '-' else '+') :: digits e.natAbs

/-- The decimal `n · 10 ^ power`.  The point is written while it falls before the seventeenth
digit and at most four zeros follow it. -/
def scaledText (n : Nat) (power : Int) : List Char :=
  let ds := digits n
  let point := (ds.length : Int) + power
  if 0 ≤ power && point ≤ 16 then positional n power ++ ['.', '0']
  else if -5 < point && point ≤ 16 then positional n power
  else
    match ds with
    | [d] => d :: exponentText (point - 1)
    | d :: more => d :: '.' :: more ++ exponentText (point - 1)
    | [] => []

/-- The text of a double. -/
def realText (x : Float) : String :=
  match Binary.ofFloat x with
  | .finite negative 0 _ => String.ofList (sign negative ++ ['0', '.', '0'])
  | .finite negative mantissa exponent =>
    let (n, power) := shortest .even mantissa exponent
    String.ofList (sign negative ++ scaledText n power)
  | _ => "null"

/-- The text of a number. -/
def Number.text : Number → String
  | .whole n => String.ofList (sign (n < 0) ++ digits n.natAbs)
  | .real x => realText x

/-! ## Reading -/

/-- Leading digits as a word, and the power of ten to scale it by. -/
structure Scaled where
  word : Nat
  power : Int

/-- Takes in digits while the word has room.  The digits that find none are left. -/
def Scaled.take (s : Scaled) (step : Int) : List Char → Scaled × List Char
  | [] => (s, [])
  | c :: rest =>
    let word := 10 * s.word + (c.toNat - 48)
    if maxWord < word then (s, c :: rest)
    else Scaled.take ⟨word, s.power + step⟩ step rest

/-- The number `word · 10 ^ power`, taken down by steps of `10 ^ 308` when it is tiny.  Only a
number of that size or a zero is in reach of `steps`. -/
def scaleDown (size : Float) (power : Int) : Nat → Float
  | 0 => 0
  | steps + 1 =>
    if -308 ≤ power then size / nearest 1 (-power)
    else if size == 0 then size
    else scaleDown (size / nearest 1 308) (power + 308) steps

/-- The double that `word · 10 ^ power` is read as; none if it is too large. -/
def Scaled.toFloat? (s : Scaled) : Option Float :=
  let size := Float.ofNat s.word
  if s.power < 0 then some (scaleDown size s.power 4)
  else if s.power ≤ 308 then
    let x := size * nearest 1 s.power
    if x.isInf then none else some x
  else if size == 0 then some size
  else none

/-- The greatest exponent that is taken in as written. -/
def maxExponent : Nat := 0x7FFFFFFF

/-- A number written with the digits `whole`, the digits `places` after a point, and an
exponent, of which some are present; none if it is too large. -/
def readNumber? (negative : Bool) (whole : List Char) (places : Option (List Char))
    (exponent : Option (Bool × List Char)) : Option Number :=
  let (head, left) := Scaled.take ⟨0, 0⟩ 0 whole
  match places, exponent, left with
  | none, none, [] =>
    if !negative then some (.whole head.word)
    else if 0 < head.word && head.word ≤ 0x8000000000000000 then some (.whole (-(head.word : Int)))
    else some (.real (-(Float.ofNat head.word)))
  | _, _, _ =>
    let raised : Scaled := ⟨head.word, head.power + left.length⟩
    let (scaled, _) := raised.take (-1) (places.getD [])
    let (down, shift) := exponent.elim (false, 0) fun e => (e.1, value e.2)
    let size? :=
      if maxExponent < shift then
        if scaled.word == 0 || down then some 0 else none
      else
        Scaled.toFloat?
          ⟨scaled.word, if down then scaled.power - shift else scaled.power + shift⟩
    size?.map fun x => .real (if negative then -x else x)

end FreeBody.Json
