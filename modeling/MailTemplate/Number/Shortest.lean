import MailTemplate.Number.Binary

/-!
# The shortest decimal

The fewest digits whose decimal reads back as a given number. All points that round to `m · 2^q`
lie between two halfway points, which belong to them when `m` is even. For one digit, then two,
and so on, the value's two neighbours on that decimal grid are tried; the first grid with a
neighbour among those points decides, of two such neighbours the closer one, and of two equally
close ones the larger.
-/

namespace MailTemplate.Number

/-- `digits · 10^exponent`. -/
structure Decimal where
  digits : Nat
  exponent : Int
  deriving Repr, DecidableEq

/-- The positive rationals that round to a number, all scaled by `num / den`: the number itself, the
ends of the range, and whether these belong to it. -/
structure Rounding where
  value : Nat
  low : Nat
  high : Nat
  closed : Bool
  num : Nat
  den : Nat

/-- What rounds to `mantissa · 2^exponent`. The gap below a power of two is half as wide. -/
def Rounding.of (mantissa : Nat) (exponent : Int) : Rounding where
  value := 4 * mantissa
  low := 4 * mantissa - (if mantissa = twoPow 52 && -1074 < exponent then 1 else 2)
  high := 4 * mantissa + 2
  closed := mantissa % 2 = 0
  num := twoPow (exponent - 2).toNat
  den := twoPow (2 - exponent).toNat

/-- The neighbour of the value among the multiples of `10^k` that rounds to it. -/
def Rounding.onGrid? (r : Rounding) (k : Int) : Option Nat :=
  let num := r.num * tenPow (-k).toNat
  let den := r.den * tenPow k.toNat
  let inside (d : Nat) : Bool :=
    if r.closed then r.low * num ≤ d * den && d * den ≤ r.high * num
    else r.low * num < d * den && d * den < r.high * num
  let floor := r.value * num / den
  let excess := r.value * num % den
  match inside floor, inside (floor + 1) with
  | true, true => some (if 2 * excess < den then floor else floor + 1)
  | true, false => some floor
  | false, true => some (floor + 1)
  | false, false => none

/-- The first grid with a hit, of `tries` grids from `10^k` downwards. -/
def Rounding.search (r : Rounding) : Nat → Int → Decimal
  | 0, k => ⟨r.value * (r.num * tenPow (-k).toNat) / (r.den * tenPow k.toNat), k⟩
  | tries + 1, k =>
      match r.onGrid? k with
      | some d => ⟨d, k⟩
      | none => r.search tries (k - 1)

/-- The shortest decimal of `mantissa · 2^exponent`, which is not zero. No grid coarser than the
first one tried has a hit, and the grid of seventeen digits always has one. -/
def shortest (mantissa : Nat) (exponent : Int) : Decimal :=
  let magnitude := (Int.ofNat mantissa.log2 + exponent) * 30103 / 100000
  (Rounding.of mantissa exponent).search 22 (magnitude + 2)

end MailTemplate.Number
