import MailTemplate.Number.Text

/-!
# Values

What expressions evaluate to. An object answers for its members and, when it is a sequence, for its
elements, for their number and for a single one; nothing but the object itself makes these answers
agree. It is equal to itself only, which its identity decides. `absent` is what a path that leads
nowhere gives, and differs from a `null` that is there.
-/

namespace MailTemplate

/-- Some items, each of which is made when it is asked for. -/
structure Items (α : Type) where
  length : Nat
  get : Fin length → α

def Items.toList {α : Type} (s : Items α) : List α := List.ofFn s.get

structure HostObject (α : Type) where
  /-- Where in the model the object stands; no two objects share it. -/
  id : List Nat
  member : String → Option α
  /-- The names of all members, in a fixed order. -/
  names : List String
  /-- All elements, when the object is a sequence. -/
  elements : Option (Items α)
  /-- The number of elements, when the object is a sequence. -/
  count : Option Nat
  element : Nat → Option α

inductive Value where
  | string (s : String)
  | number (x : Float)
  | bool (b : Bool)
  | null
  | absent
  | list (items : List Value)
  | object (o : HostObject Value)

inductive Kind where
  | string
  | number
  | bool
  | null
  | absent
  | list
  | object
  deriving Repr, DecidableEq

def Kind.name : Kind → String
  | string => "string"
  | number => "number"
  | bool => "boolean"
  | null => "null"
  | absent => "absent"
  | list => "list"
  | object => "object"

namespace Value

instance : Inhabited Value := ⟨null⟩

def kind : Value → Kind
  | string _ => .string
  | number _ => .number
  | bool _ => .bool
  | null => .null
  | absent => .absent
  | list _ => .list
  | object _ => .object

def isTruthy : Value → Bool
  | bool b => b
  | number x => x != 0 && !x.isNaN
  | string s => !s.isEmpty
  | list items => !items.isEmpty
  | object _ => true
  | null | absent => false

def isNullish : Value → Bool
  | null | absent => true
  | _ => false

/-- Lists and objects, which have no text of their own. -/
def isComposite : Value → Bool
  | list _ | object _ => true
  | _ => false

def elements? : Value → Option (List Value)
  | list items => some items
  | object o => o.elements.map Items.toList
  | _ => none

def count? : Value → Option Nat
  | list items => some items.length
  | object o => o.count
  | _ => none

def element? : Value → Nat → Option Value
  | list items, i => items[i]?
  | object o, i => o.element i
  | _, _ => none

mutual

/-- Equality: numbers as numbers, so that not a number differs from itself, and objects by
identity. -/
def same : Value → Value → Bool
  | string a, string b => a == b
  | number a, number b => a == b
  | bool a, bool b => a == b
  | null, null => true
  | absent, absent => true
  | list as, list bs => allSame as bs
  | object a, object b => a.id == b.id
  | _, _ => false

def allSame : List Value → List Value → Bool
  | [], [] => true
  | a :: as, b :: bs => same a b && allSame as bs
  | _, _ => false

end

mutual

def display : Value → String
  | string s => s
  | number x => Number.written x
  | bool b => if b then "true" else "false"
  | null | absent => ""
  | list items => "[" ++ displayItems items ++ "]"
  | object _ => "[object]"

def displayItems : List Value → String
  | [] => ""
  | [a] => display a
  | a :: as => display a ++ ", " ++ displayItems as

end

end Value

end MailTemplate
