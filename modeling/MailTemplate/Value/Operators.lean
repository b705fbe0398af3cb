import MailTemplate.RuntimeError

/-!
# Operators on values

What binary operators give for two values, or why they do not apply. `null` and `absent` are equal
to each other and to nothing else; other values of different kinds cannot be compared.
-/

namespace MailTemplate

namespace Value

/-- Two numbers added, or the texts of two values joined when one of them is a string. -/
def add (l r : Value) : Option Value :=
  match l, r with
  | number a, number b => some (number (a + b))
  | string _, _ | _, string _ =>
      if l.isComposite || r.isComposite then none else some (string (l.display ++ r.display))
  | _, _ => none

/-- Equality as the operators see it; none when the kinds do not go together. -/
def equals? (l r : Value) : Option Bool :=
  if l.isNullish || r.isNullish then some (l.isNullish && r.isNullish)
  else if l.kind = r.kind then some (l.same r)
  else none

/-- The order of two numbers, if both are numbers. -/
def compareNumbers? (a b : Float) : Option Ordering :=
  if a < b then some .lt
  else if a == b then some .eq
  else if b < a then some .gt
  else none

/-- The order of two numbers or two strings, and none inside when one is not a number. -/
def compare? : Value → Value → Option (Option Ordering)
  | number a, number b => some (compareNumbers? a b)
  | string a, string b => some (some (if a < b then .lt else if a == b then .eq else .gt))
  | _, _ => none

/-- Whether two numbers or strings in some order satisfy a comparison. -/
def ordered (op : BinaryOp) (o : Ordering) : Bool :=
  match op with
  | .less => o == .lt
  | .greater => o == .gt
  | .atMost => o != .gt
  | _ => o != .lt

def arithmetic (op : BinaryOp) (a b : Float) : Float :=
  match op with
  | .sub => a - b
  | .mul => a * b
  | .div => a / b
  | _ => Number.remainder a b

/-- The result of an operator; none when it does not apply. -/
def result? (op : BinaryOp) (l r : Value) : Option Value :=
  match op with
  | .add => l.add r
  | .sub | .mul | .div | .rem =>
      match l, r with
      | number a, number b => some (number (arithmetic op a b))
      | _, _ => none
  | .equal => (l.equals? r).map bool
  | .notEqual => (l.equals? r).map fun b => bool !b
  | .less | .greater | .atMost | .atLeast =>
      (compare? l r).map fun o => bool (o.any (ordered op))
  | .andAlso => some (bool (l.isTruthy && r.isTruthy))
  | .orElse => some (bool (l.isTruthy || r.isTruthy))

/-- The warning that an operator on two values deserves. -/
def warning? (op : BinaryOp) (l r : Value) : Option WarningCause :=
  match op, l, r with
  | .div, number a, number b | .rem, number a, number b =>
      if b == 0 then some (.divisionByZero a op) else none
  | _, _, _ => none

end Value

end MailTemplate
