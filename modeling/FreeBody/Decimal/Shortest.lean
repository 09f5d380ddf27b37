import FreeBody.Decimal.Binary

/-!
# Shortest decimals

The decimal `digits · 10 ^ power` with the fewest digits among those that round to a given
double, and of several such the nearest to it.

The reals that round to `mantissa · 2 ^ exponent` form an interval, closed when the mantissa is
even.  The search walks down the powers of ten, from one above the double, and stops at the
first grid that has a point in the interval.  When a grid has one, one of the double's two
neighbours on that grid is such a point, so only these two are tried.
-/

namespace FreeBody.Decimal

/-- The reals that round to one double, in units of `2 ^ exponent`. -/
structure Interval where
  low : Nat
  mid : Nat
  high : Nat
  closed : Bool
  exponent : Int

/-- The interval around `mantissa · 2 ^ exponent`.  Below a power of two the doubles lie twice
as close. -/
def Interval.around (mantissa : Nat) (exponent : Int) : Interval where
  low :=
    if mantissa == Nat.pow 2 52 && -1074 < exponent then 4 * mantissa - 1
    else 4 * mantissa - 2
  mid := 4 * mantissa
  high := 4 * mantissa + 2
  closed := mantissa % 2 == 0
  exponent := exponent - 2

/-- `c · 10 ^ power` against `a · 2 ^ exponent` compares as `c · p` against `a · q`, where
`(p, q)` is this pair. -/
def weights (power exponent : Int) : Nat × Nat :=
  (Nat.pow 10 power.toNat * Nat.pow 2 (-exponent).toNat,
    Nat.pow 10 (-power).toNat * Nat.pow 2 exponent.toNat)

/-- Whether `c · 10 ^ power` lies in the interval. -/
def Interval.holds (i : Interval) (power : Int) (c : Nat) : Bool :=
  let (p, q) := weights power i.exponent
  if i.closed then i.low * q ≤ c * p && c * p ≤ i.high * q
  else i.low * q < c * p && c * p < i.high * q

/-- Which of two decimals at the same distance is written. -/
inductive Tie
  | up
  | even

/-- The point of the grid of step `10 ^ power` that stands for the interval, if one does. -/
def Interval.gridPoint? (i : Interval) (tie : Tie) (power : Int) : Option Nat :=
  let (p, q) := weights power i.exponent
  let below := i.mid * q / p
  match i.holds power below, i.holds power (below + 1) with
  | true, false => some below
  | false, true => some (below + 1)
  | false, false => none
  | true, true =>
    let twice := 2 * (i.mid * q % p)
    if twice < p then some below
    else if p < twice then some (below + 1)
    else
      match tie with
      | .up => some (below + 1)
      | .even => some (below + below % 2)

/-- The first grid point met on the way down from `power`, within `steps` steps. -/
def Interval.search (i : Interval) (tie : Tie) : Nat → Int → Nat × Int
  | 0, power => ((i.gridPoint? tie power).getD 0, power)
  | steps + 1, power =>
    match i.gridPoint? tie power with
    | some digits => (digits, power)
    | none => i.search tie steps (power - 1)

/-- A power of ten above `mantissa · 2 ^ exponent`; a factor ten has more than 3.32 bits. -/
def topPower (mantissa : Nat) (exponent : Int) : Int :=
  ((mantissa.log2 : Int) + exponent + 2) * 30103 / 100000 + 1

/-- The digits and power of the shortest decimal of `mantissa · 2 ^ exponent`, which is not
zero.  Seventeen digits tell all doubles apart, so the search ends within its steps. -/
def shortest (tie : Tie) (mantissa : Nat) (exponent : Int) : Nat × Int :=
  (Interval.around mantissa exponent).search tie 24 (topPower mantissa exponent)

end FreeBody.Decimal
