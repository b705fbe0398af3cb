import MailTemplate.Number.Shortest

/-!
# Number text

Two ways to write a number. `plain` never uses an exponent and keeps the sign of zero. `written` is
what documents show: whole numbers up to `2^53` as integers, an exponent from `10^21` up, and
otherwise `plain`.
-/

namespace MailTemplate.Number

/-- The decimal without an exponent. -/
def Decimal.positional (d : Decimal) : String :=
  let digits := Nat.toDigits 10 d.digits
  if 0 ≤ d.exponent then
    String.ofList (digits ++ List.replicate d.exponent.toNat '0')
  else
    let places := (-d.exponent).toNat
    if places < digits.length then
      let whole := digits.length - places
      String.ofList (digits.take whole ++ '.' :: digits.drop whole)
    else
      String.ofList ('0' :: '.' :: List.replicate (places - digits.length) '0' ++ digits)

/-- The decimal with one digit before the point and an exponent. -/
def Decimal.scientific (d : Decimal) : String :=
  let digits := Nat.toDigits 10 d.digits
  let exponent := d.exponent + Int.ofNat (digits.length - 1)
  match digits with
  | [] => ""
  | [c] => String.singleton c ++ "e" ++ toString exponent
  | c :: cs => String.singleton c ++ "." ++ String.ofList cs ++ "e" ++ toString exponent

def signed (negative : Bool) (s : String) : String := if negative then "-" ++ s else s

/-- The number without an exponent; zero keeps its sign. -/
def plain (x : Float) : String :=
  match decode x with
  | .nan => "NaN"
  | .infinite negative => signed negative "inf"
  | .finite negative 0 _ => signed negative "0"
  | .finite negative m q => signed negative (shortest m q).positional

/-- The least number that is written with an exponent. -/
def exponentFrom : Float := 1e21

/-- The number as documents show it. -/
def written (x : Float) : String :=
  match toSmallInt? x, decode x with
  | some n, _ => toString n
  | none, .finite negative m q =>
      if exponentFrom ≤ x.abs then signed negative (shortest m q).scientific
      else signed negative (shortest m q).positional
  | none, _ => plain x

end MailTemplate.Number
