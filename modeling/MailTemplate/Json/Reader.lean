import MailTemplate.Json.Basic
import MailTemplate.Number.Digits
import MailTemplate.Number.Stepwise

/-!
# Reading data

The reader of data files. It accepts the JSON grammar with three limits: arrays and objects are
nested at most 127 deep, numbers are finite, and escapes name whole characters.
-/

namespace MailTemplate.Json

def isSpace (c : Char) : Bool := c == ' ' || c == '\t' || c == '\n' || c == '\r'

def skip (cs : List Char) : List Char := cs.dropWhile isSpace

/-- The four hexadecimal digits that a text starts with, as a number. -/
def fourHex? : List Char → Option Nat
  | a :: b :: c :: d :: _ => Number.ofDigitsIn? 16 [a, b, c, d]
  | _ => none

/-- The escape at the front of a text, without its backslash: the character and how many it takes.
-/
def escape? : List Char → Option (Char × Nat)
  | '"' :: _ => some ('"', 1)
  | '\\' :: _ => some ('\\', 1)
  | '/' :: _ => some ('/', 1)
  | 'b' :: _ => some ('\x08', 1)
  | 'f' :: _ => some ('\x0c', 1)
  | 'n' :: _ => some ('\n', 1)
  | 'r' :: _ => some ('\r', 1)
  | 't' :: _ => some ('\t', 1)
  | 'u' :: cs =>
      match fourHex? cs with
      | none => none
      | some n =>
          if n < 0xD800 || 0xE000 ≤ n then some (Char.ofNat n, 5)
          else if n < 0xDC00 then
            match cs.drop 4 with
            | '\\' :: 'u' :: low =>
                match fourHex? low with
                | some m =>
                    if 0xDC00 ≤ m && m < 0xE000 then
                      some (Char.ofNat (0x10000 + (n - 0xD800) * 0x400 + (m - 0xDC00)), 11)
                    else none
                | none => none
            | _ => none
          else none
  | _ => none

/-- Reads a string up to its closing quotation mark. -/
def readText (cs : List Char) : Option (List Char × List Char) :=
  match cs with
  | [] => none
  | '"' :: rest => some ([], rest)
  | '\\' :: rest =>
      match escape? rest with
      | none => none
      | some (c, n) => (readText (rest.drop n)).map fun r => (c :: r.1, r.2)
  | c :: rest =>
      if c.toNat < 0x20 then none else (readText rest).map fun r => (c :: r.1, r.2)
termination_by cs.length
decreasing_by all_goals simp only [List.length_drop, List.length_cons]; omega

/-- The digits that a text starts with, at least one, and the rest. -/
def digits? (cs : List Char) : Option (List Char × List Char) :=
  let ds := cs.takeWhile Char.isDigit
  if ds.isEmpty then none else some (ds, cs.dropWhile Char.isDigit)

/-- Reads the whole part of a number, which starts with a zero only if it is zero. -/
def readWhole? (cs : List Char) : Option (List Char × List Char) :=
  match digits? cs with
  | some ('0' :: _ :: _, _) => none
  | r => r

def readFraction? : List Char → Option (List Char × List Char)
  | '.' :: cs => digits? cs
  | cs => some ([], cs)

def readExponent? : List Char → Option (Int × List Char)
  | c :: cs =>
      if c = 'e' || c = 'E' then
        let (negative, cs) := match cs with
          | '-' :: cs => (true, cs)
          | '+' :: cs => (false, cs)
          | cs => (false, cs)
        (digits? cs).map fun (ds, rest) =>
          let n := Int.ofNat (Number.ofDigits ds)
          (if negative then -n else n, rest)
      else some (0, c :: cs)
  | [] => some (0, [])

def readNumber? (cs : List Char) : Option (Json × List Char) := do
  let (negative, cs) := match cs with
    | '-' :: cs => (true, cs)
    | cs => (false, cs)
  let (whole, cs) ← readWhole? cs
  let (fraction, cs) ← readFraction? cs
  let (exponent, cs) ← readExponent? cs
  let x ← (Number.Decimal.ofLeading whole fraction exponent).read?
  return (.number (if negative then -x else x), cs)

mutual

/-- Reads a value with at most `depth` levels of arrays and objects in it. Every level of recursion
takes one unit of fuel, and a text of `n` characters needs less than `2 * n + 2`. -/
def readValue (fuel depth : Nat) (cs : List Char) : Option (Json × List Char) :=
  match fuel with
  | 0 => none
  | fuel + 1 =>
      match skip cs with
      | 'n' :: 'u' :: 'l' :: 'l' :: rest => some (.null, rest)
      | 't' :: 'r' :: 'u' :: 'e' :: rest => some (.bool true, rest)
      | 'f' :: 'a' :: 'l' :: 's' :: 'e' :: rest => some (.bool false, rest)
      | '"' :: rest => (readText rest).map fun r => (.string (String.ofList r.1), r.2)
      | '[' :: rest =>
          match depth with
          | 0 => none
          | depth + 1 =>
              match skip rest with
              | ']' :: rest => some (.array [], rest)
              | rest => (readItems fuel depth rest).map fun r => (.array r.1, r.2)
      | '{' :: rest =>
          match depth with
          | 0 => none
          | depth + 1 =>
              match skip rest with
              | '}' :: rest => some (.object [], rest)
              | rest => (readMembers fuel depth rest).map fun r => (.object r.1, r.2)
      | rest => readNumber? rest

/-- Reads the items of an array up to its end. -/
def readItems (fuel depth : Nat) (cs : List Char) : Option (List Json × List Char) :=
  match fuel with
  | 0 => none
  | fuel + 1 => do
      let (item, rest) ← readValue fuel depth cs
      match skip rest with
      | ',' :: rest => (readItems fuel depth rest).map fun r => (item :: r.1, r.2)
      | ']' :: rest => return ([item], rest)
      | _ => none

/-- Reads the members of an object up to its end. -/
def readMembers (fuel depth : Nat) (cs : List Char) : Option (List (String × Json) × List Char) :=
  match fuel with
  | 0 => none
  | fuel + 1 =>
      match skip cs with
      | '"' :: rest => do
          let (name, rest) ← readText rest
          match skip rest with
          | ':' :: rest =>
              let (item, rest) ← readValue fuel depth rest
              let m := (String.ofList name, item)
              match skip rest with
              | ',' :: rest => (readMembers fuel depth rest).map fun r => (m :: r.1, r.2)
              | '}' :: rest => return ([m], rest)
              | _ => none
          | _ => none
      | _ => none

end

def maxDepth : Nat := 127

def ofText? (s : String) : Option Json :=
  let cs := s.toList
  match readValue (2 * cs.length + 2) maxDepth cs with
  | some (j, rest) => if (skip rest).isEmpty then some j else none
  | none => none

end MailTemplate.Json
