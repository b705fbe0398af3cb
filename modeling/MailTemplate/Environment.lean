import MailTemplate.Value.Access

/-!
# Variables

The variables of a render, in scopes of which the innermost comes first. The outermost scope binds
the model alone and is never written; the one before it holds the declarations of the template's
top level. A name that no scope binds is a member of the model.
-/

namespace MailTemplate

abbrev Scope := List (String × Value)

namespace Scope

def binds (s : Scope) (name : String) : Bool := (s.lookup name).isSome

/-- The scope with another value for a variable that it binds. -/
def set (s : Scope) (name : String) (v : Value) : Scope :=
  s.map fun b => if b.1 == name then (b.1, v) else b

end Scope

structure Environment where
  model : Value
  scopes : List Scope

namespace Environment

/-- The variables at the start of a render. -/
def new (model : Value) : Environment := ⟨model, [[], [(modelName, model)]]⟩

def lookup (env : Environment) (name : String) : Option Value :=
  match env.scopes.findSome? (·.lookup name) with
  | some v => some v
  | none => env.model.member? name

def push (env : Environment) : Environment := { env with scopes := [] :: env.scopes }

/-- Leaves the innermost scope; the two outermost ones stay. -/
def pop (env : Environment) : Environment :=
  if 2 < env.scopes.length then { env with scopes := env.scopes.tail } else env

def declare (env : Environment) (name : String) (v : Value) : Except FaultCause Environment :=
  if name = modelName then .error .reserved
  else match env.scopes with
    | [] => .error .noScope
    | s :: ss =>
        if s.binds name then .error (.alreadyDeclared name)
        else .ok { env with scopes := ((name, v) :: s) :: ss }

/-- The scopes with another value for the innermost variable of a name. The last scope is never
written. -/
def assignIn (name : String) (v : Value) : List Scope → Option (List Scope)
  | [] | [_] => none
  | s :: ss =>
      if s.binds name then some (s.set name v :: ss)
      else (assignIn name v ss).map (s :: ·)

def assign (env : Environment) (name : String) (v : Value) : Except FaultCause Environment :=
  match assignIn name v env.scopes with
  | some scopes => .ok { env with scopes }
  | none =>
      if name = modelName || (env.model.member? name).isSome then .error (.modelMember name)
      else .error (.undeclared name)

end Environment

end MailTemplate
