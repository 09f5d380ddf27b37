/-!
# What a double stands for

A finite double is `± mantissa · 2 ^ exponent` with natural `mantissa`; `Binary.ofFloat` reads
the three parts off its bits.  Everything that needs the exact value goes through this view:
decimal digits, rounding to whole numbers and exact divisibility.
-/

namespace FreeBody

/-- The value of a double. -/
inductive Binary
  | nan
  | infinite (negative : Bool)
  | finite (negative : Bool) (mantissa : Nat) (exponent : Int)

namespace Binary

/-- The parts of a double: 52 stored mantissa bits, 11 exponent bits, a sign bit. -/
def ofFloat (x : Float) : Binary :=
  let bits := x.toBits.toNat
  let negative := bits / Nat.pow 2 63 == 1
  let scale : Nat := bits / Nat.pow 2 52 % Nat.pow 2 11
  let stored : Nat := bits % Nat.pow 2 52
  if scale == 2047 then
    if stored == 0 then infinite negative else nan
  else if scale == 0 then finite negative stored (-1074)
  else finite negative (stored + Nat.pow 2 52) ((scale : Int) - 1075)

/-- A power of two as a quotient of naturals. -/
def power (exponent : Int) : Nat × Nat :=
  (Nat.pow 2 exponent.toNat, Nat.pow 2 (-exponent).toNat)

end Binary

/-- The quotient rounded to the nearest natural, a half going to the even neighbour. -/
def divHalfEven (num den : Nat) : Nat :=
  let whole := num / den
  let twice := 2 * (num % den)
  if twice < den then whole
  else if den < twice then whole + 1
  else whole + whole % 2

/-- `x` rounded to the nearest whole number, a half going away from zero. -/
def roundAway (x : Float) : Float :=
  match Binary.ofFloat x with
  | .finite negative mantissa exponent =>
    if 0 ≤ exponent then x
    else
      let unit := Nat.pow 2 (-exponent).toNat
      let size := Float.ofNat ((2 * mantissa + unit) / (2 * unit))
      if negative then -size else size
  | _ => x

/-- Whether `x` is a whole multiple of `n`. -/
def isMultipleOf (n : Nat) (x : Float) : Bool :=
  match Binary.ofFloat x with
  | .finite _ mantissa exponent =>
    mantissa * (Binary.power exponent).1 % (n * (Binary.power exponent).2) == 0
  | _ => false

end FreeBody
