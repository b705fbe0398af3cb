import MailTemplate.Value.Model

/-!
# Data of a model

Structured data as files hold it, and the value that it is in a template. Every object becomes an
object of its own, whose identity is its position in the data.
-/

namespace MailTemplate

inductive Json where
  | null
  | bool (b : Bool)
  | number (x : Float)
  | string (s : String)
  | array (items : List Json)
  | object (members : List (String × Json))
  deriving Repr

mutual

/-- The value of data that stands at the position `place`. -/
def Value.ofJson (place : List Nat) : Json → Value
  | .null => .null
  | .bool b => .bool b
  | .number x => .number x
  | .string s => .string s
  | .array items => .list (Value.ofItems place 0 items)
  | .object ms => .object (.ofMembers place (Value.ofMembers place 0 ms))

/-- The values of items from the index `i` on. -/
def Value.ofItems (place : List Nat) (i : Nat) : List Json → List Value
  | [] => []
  | j :: js => Value.ofJson (i :: place) j :: Value.ofItems place (i + 1) js

/-- The values of members from the index `i` on, under their names. -/
def Value.ofMembers (place : List Nat) (i : Nat) : List (String × Json) → List (String × Value)
  | [] => []
  | (name, j) :: ms => (name, Value.ofJson (i :: place) j) :: Value.ofMembers place (i + 1) ms

end

end MailTemplate
