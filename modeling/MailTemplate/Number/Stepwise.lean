import MailTemplate.Number.Shortest

/-!
# Numbers read in steps

A decimal of any length, read with numbers alone: of its digits the first that fit in 64 bits are
kept, the natural number they stand for is rounded, and then it is multiplied or divided by a
rounded power of ten, which rounds once more. What comes out may differ from the closest number.
-/

namespace MailTemplate.Number

/-- A natural number with digits written behind it, as many as fit in 64 bits, and the digits from
the first that does not fit on. -/
def appendDigits (n : Nat) : List Char → Nat × List Char
  | [] => (n, [])
  | d :: ds =>
      let m := 10 * n + (d.toNat - '0'.toNat)
      if m < UInt64.size then appendDigits m ds else (n, d :: ds)

/-- The decimal with the digits that fit in 64 bits. Digits of the whole part that do not fit count
as places; those of the fraction are left out. -/
def Decimal.ofLeading (whole fraction : List Char) (exponent : Int) : Decimal :=
  let (n, beyond) := appendDigits 0 whole
  let (n, ignored) := appendDigits n fraction
  ⟨n, exponent + beyond.length - (fraction.length - ignored.length)⟩

/-- The largest power of ten that is a number, given by its exponent. -/
def maxPower : Nat := 308

def powerOfTen (n : Nat) : Float := nearest false (tenPow n) 1

/-- A number divided by the `n`th power of ten, in as few divisions as there are powers for. -/
def scaleDown (x : Float) (n : Nat) : Float :=
  if n ≤ maxPower then x / powerOfTen n
  else if x == 0 then x
  else scaleDown (x / powerOfTen maxPower) (n - maxPower)
termination_by n
decreasing_by simp only [maxPower] at *; omega

/-- A number multiplied by the `n`th power of ten, if that is a number. -/
def scaleUp? (x : Float) (n : Nat) : Option Float :=
  if n ≤ maxPower then
    let y := x * powerOfTen n
    if y.isInf then none else some y
  else if x == 0 then some x
  else none

/-- The number that a decimal is read as, if there is one. -/
def Decimal.read? (d : Decimal) : Option Float :=
  let x := nearest false d.digits 1
  if 0 ≤ d.exponent then scaleUp? x d.exponent.toNat
  else some (scaleDown x (-d.exponent).toNat)

end MailTemplate.Number
