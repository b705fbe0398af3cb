import MailTemplate.RuntimeError

/-!
# Members and indexes

Following paths and indexes into values. Where something is required, a missing part is an error
that names the path up to it; where it is optional, the result is `absent`. Once a path is at
`absent` it stays there.
-/

namespace MailTemplate

inductive Resolution where
  | required
  | optional
  deriving Repr, DecidableEq

namespace Value

def lowerAscii (s : String) : String := s.map Char.toLower

/-- `Count` and `Length`, in any case, of sequences and strings. -/
def builtin? (base : Value) (name : String) : Option Value :=
  if lowerAscii name == "count" || lowerAscii name == "length" then
    match base with
    | string s => some (number (Float.ofNat s.length))
    | base => base.count?.map fun n => number (Float.ofNat n)
  else none

/-- A member of a value; what an object has itself comes before the built-in members. -/
def member? (base : Value) (name : String) : Option Value :=
  let own := match base with
    | object o => o.member name
    | _ => none
  match own with
  | some v => some v
  | none => base.builtin? name

/-- Follows `segments` from a value, which was reached by the path `before`. -/
def resolve (base : Value) (before segments : List String) (mode : Resolution) :
    Except FaultCause Value :=
  match segments with
  | [] => .ok base
  | name :: rest =>
      match base with
      | absent => .ok absent
      | base =>
          match base.member? name with
          | some v => v.resolve (before ++ [name]) rest mode
          | none =>
              match mode with
              | .optional => .ok absent
              | .required => .error (.missing (.names (before ++ [name])))

/-- The value, or what a missing one gives. -/
def orMissing (found : Option Value) (mode : Resolution) (cause : FaultCause) :
    Except FaultCause Value :=
  match found, mode with
  | some v, _ => .ok v
  | none, .optional => .ok absent
  | none, .required => .error cause

/-- The position of an element that a number stands for, if it is a whole one. Positions have 64
bits, and numbers beyond them stand for the last one. -/
def position? (x : Float) : Option Nat := (Number.toNat? x).map (min · (UInt64.size - 1))

/-- `base[position]`: an element of a sequence by a whole number, a member by a string. -/
def index (base position : Value) (mode : Resolution) : Except FaultCause Value :=
  if base.isComposite then
    match position with
    | string key => orMissing (base.member? key) mode (.missing (.key key))
    | number x =>
        match base.count? with
        | none => .error .objectPosition
        | some count =>
            orMissing ((position? x).bind base.element?) mode (.outOfRange x count)
    | _ => .error (.indexKinds base.kind position.kind)
  else
    match base, mode with
    | absent, .optional => .ok absent
    | _, _ => .error (.indexKinds base.kind position.kind)

end Value

end MailTemplate
