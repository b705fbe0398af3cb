/-!
# Digits

The natural numbers that digits stand for. In decimal the digits are known to be some; in other
bases they are checked.
-/

namespace MailTemplate.Number

/-- The natural number that a string of decimal digits stands for. -/
def ofDigits (ds : List Char) : Nat := ds.foldl (fun n d => 10 * n + (d.toNat - '0'.toNat)) 0

/-- The value of a digit in a base up to 16. -/
def digitIn? (base : Nat) (c : Char) : Option Nat :=
  let value? :=
    if c.isDigit then some (c.toNat - '0'.toNat)
    else if 'a' ≤ c && c ≤ 'f' then some (c.toNat - 'a'.toNat + 10)
    else if 'A' ≤ c && c ≤ 'F' then some (c.toNat - 'A'.toNat + 10)
    else none
  value?.filter (· < base)

/-- The natural number that one or more digits of a base stand for. -/
def ofDigitsIn? (base : Nat) (cs : List Char) : Option Nat :=
  if cs.isEmpty then none
  else cs.foldl (fun n c => n.bind fun n => (digitIn? base c).map (base * n + ·)) (some 0)

end MailTemplate.Number
