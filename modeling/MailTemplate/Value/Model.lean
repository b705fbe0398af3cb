import MailTemplate.Value.Basic

/-!
# Objects of models

Objects with named members, sequences that are objects, and ranges of numbers.
-/

namespace MailTemplate

/-- Members sorted by name, with one more; it replaces a member of the same name. -/
def insertMember {α : Type} (name : String) (a : α) : List (String × α) → List (String × α)
  | [] => [(name, a)]
  | (n, b) :: ms =>
      if name < n then (name, a) :: (n, b) :: ms
      else if name = n then (name, a) :: ms
      else (n, b) :: insertMember name a ms

/-- Members sorted by name; of several of one name the last counts. -/
def sortMembers {α : Type} (ms : List (String × α)) : List (String × α) :=
  ms.foldl (fun sorted m => insertMember m.1 m.2 sorted) []

namespace HostObject

def ofMembers (id : List Nat) (ms : List (String × Value)) : HostObject Value :=
  let sorted := sortMembers ms
  { id
    member := fun name => sorted.lookup name
    names := sorted.map (·.1)
    elements := none
    count := none
    element := fun _ => none }

/-- An object that is also a sequence. -/
def ofSequence (id : List Nat) (items : List Value) (ms : List (String × Value)) :
    HostObject Value :=
  let array := items.toArray
  { ofMembers id ms with
    elements := some ⟨array.size, fun i => array[i]⟩
    count := some array.size
    element := fun i => array[i]? }

/-- The sequence of the numbers below `n`, without members. -/
def range (id : List Nat) (n : Nat) : HostObject Value where
  id
  member _ := none
  names := []
  elements := some ⟨n, fun i => .number (Float.ofNat i)⟩
  count := some n
  element i := if i < n then some (.number (Float.ofNat i)) else none

end HostObject

end MailTemplate
