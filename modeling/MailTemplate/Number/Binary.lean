/-!
# Numbers as binary fractions

A finite number is `±m · 2^q` with `m < 2^53` and `q ≥ -1074`. `decode` gives these parts,
`nearest` the number closest to a quotient of naturals, ties to the even mantissa, and `remainder`
the remainder of a division truncated toward zero, which is exact.
-/

namespace MailTemplate.Number

def twoPow (n : Nat) : Nat := Nat.pow 2 n

def tenPow (n : Nat) : Nat := Nat.pow 10 n

/-- A number taken apart. -/
inductive Parts where
  | nan
  | infinite (negative : Bool)
  /-- `±mantissa · 2^exponent`. -/
  | finite (negative : Bool) (mantissa : Nat) (exponent : Int)
  deriving Repr, DecidableEq

def decode (x : Float) : Parts :=
  let bits := x.toBits.toNat
  let negative := twoPow 63 ≤ bits
  let field := bits / twoPow 52 % twoPow 11
  let fraction := bits % twoPow 52
  if field = 2047 then
    if fraction = 0 then .infinite negative else .nan
  else if field = 0 then .finite negative fraction (-1074)
  else .finite negative (twoPow 52 + fraction) (Int.ofNat field - 1075)

def infinityBits : Nat := 2047 * twoPow 52

/-- The bits of `mantissa · 2^(scale - 1074)` for a mantissa of at most 53 bits, or `2^53`, whose
top bit is set unless `scale` is zero. What is too large becomes infinity. -/
def magnitudeBits (mantissa scale : Nat) : Nat := min (scale * twoPow 52 + mantissa) infinityBits

/-- The number with the given sign and bits of its magnitude. -/
def ofMagnitude (negative : Bool) (bits : Nat) : Float :=
  Float.ofBits (UInt64.ofNat (bits + if negative then twoPow 63 else 0))

/-- `num / den` rounded to a natural, a half going to the even neighbour. -/
def roundHalfEven (num den : Nat) : Nat :=
  let q := num / den
  let r := num % den
  if 2 * r < den then q
  else if den < 2 * r then q + 1
  else if q % 2 = 0 then q else q + 1

/-- The least `scale` for which `num / den` is below `2^53 · 2^(scale - 1074)`. -/
def scaleOf (num den : Nat) : Nat :=
  let guess := Int.ofNat num.log2 - Int.ofNat den.log2 - 52
  let fits := if guess < 0
    then num * twoPow (-guess).toNat < den * twoPow 52
    else num < den * twoPow (guess.toNat + 52)
  ((if fits then guess - 1 else guess) + 1074).toNat

/-- The bits of the number closest to `num / den`, ties to the even mantissa. -/
def nearestBits (num den : Nat) : Nat :=
  let scale := scaleOf num den
  let mantissa :=
    if scale ≤ 1074 then roundHalfEven (num * twoPow (1074 - scale)) den
    else roundHalfEven num (den * twoPow (scale - 1074))
  magnitudeBits mantissa scale

/-- The number closest to `±num / den`. -/
def nearest (negative : Bool) (num den : Nat) : Float :=
  ofMagnitude negative (if num = 0 then 0 else nearestBits num den)

/-- The number closest to `±mantissa · 2^exponent`. -/
def ofScaled (negative : Bool) (mantissa : Nat) (exponent : Int) : Float :=
  nearest negative (mantissa * twoPow exponent.toNat) (twoPow (-exponent).toNat)

/-- The number closest to `±digits · 10^exponent`. Beyond the range of all numbers the power of ten
is not computed. -/
def ofDecimal (negative : Bool) (digits : Nat) (exponent : Int) : Float :=
  let size := Int.ofNat (digits.log2 / 3 + 1) + exponent
  if digits = 0 || size < -400 then ofMagnitude negative 0
  else if 400 < exponent then ofMagnitude negative infinityBits
  else nearest negative (digits * tenPow exponent.toNat) (tenPow (-exponent).toNat)

/-- The remainder of `x / y` with the sign of `x`; not a number when `x` is infinite or `y` is
zero. -/
def remainder (x y : Float) : Float :=
  match decode x, decode y with
  | .nan, _ | _, .nan | .infinite _, _ => 0.0 / 0.0
  | .finite .., .infinite _ => x
  | .finite negative m p, .finite _ n q =>
      if n = 0 then 0.0 / 0.0
      else
        let e := min p q
        ofScaled negative ((m * twoPow (p - e).toNat) % (n * twoPow (q - e).toNat)) e

/-- The natural number that `m · 2^q` is, if it is one. -/
def whole? (m : Nat) (q : Int) : Option Nat :=
  if 0 ≤ q then some (m * twoPow q.toNat)
  else if m % twoPow (-q).toNat = 0 then some (m / twoPow (-q).toNat)
  else none

/-- The whole number at most `2^53` in size that `x` is, if it is one. -/
def toSmallInt? (x : Float) : Option Int :=
  match decode x with
  | .finite negative m q =>
      ((whole? m q).filter (· ≤ twoPow 53)).map fun n =>
        if negative then -Int.ofNat n else Int.ofNat n
  | _ => none

def toNat? (x : Float) : Option Nat :=
  match decode x with
  | .finite negative m q => if negative && m != 0 then none else whole? m q
  | _ => none

end MailTemplate.Number
