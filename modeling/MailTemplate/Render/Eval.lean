import MailTemplate.Environment
import MailTemplate.Value.Operators

/-!
# Evaluating expressions

Expressions read the variables and change nothing. What an expression prints or stores is required
to exist; in the tests of conditionals a missing member reads as `absent`.
-/

namespace MailTemplate

/-- A result with the warnings given on the way, or an error. -/
def Checked (α : Type) := Except RuntimeError (α × List Warning)

namespace Checked

instance : Monad Checked where
  pure a := .ok (a, [])
  bind x f := match x with
    | .error e => .error e
    | .ok (a, ws) => match f a with
        | .error e => .error e
        | .ok (b, ws') => .ok (b, ws ++ ws')

def fail {α : Type} (line : Nat) (cause : FaultCause) : Checked α := .error ⟨line, cause⟩

/-- A result without warnings, or the cause of an error on the given line. -/
def ofExcept {α : Type} (line : Nat) : Except FaultCause α → Checked α
  | .ok a => pure a
  | .error cause => fail line cause

end Checked

/-- The result of an operator; a strict evaluation warns of suspicious ones. -/
def BinaryOp.eval (strict : Bool) (line : Nat) (op : BinaryOp) (l r : Value) : Checked Value :=
  match Value.result? op l r with
  | none => .fail line (.operands op l.kind r.kind)
  | some v =>
      .ok (v, if strict then ((Value.warning? op l r).map (Warning.mk line)).toList else [])

def Expr.eval (strict : Bool) (env : Environment) (line : Nat) (mode : Resolution) :
    Expr → Checked Value
  | number x => pure (.number x)
  | string s => pure (.string s)
  | bool b => pure (.bool b)
  | null => pure .null
  | path [] => pure .absent
  | path (root :: rest) =>
      match env.lookup root, mode with
      | some v, mode => .ofExcept line (v.resolve [root] rest mode)
      | none, .optional => pure .absent
      | none, .required => .fail line (.missing (.names [root]))
  | member base name => do
      .ofExcept line ((← base.eval strict env line mode).resolve [] [name] mode)
  | index base position => do
      let b ← base.eval strict env line mode
      let i ← position.eval strict env line mode
      .ofExcept line (b.index i mode)
  | unary .not e => do return .bool !(← e.eval strict env line mode).isTruthy
  | unary .neg e => do
      match ← e.eval strict env line mode with
      | .number x => return .number (-x)
      | v => .fail line (.negation v.kind)
  | binary .andAlso l r => do
      if (← l.eval strict env line mode).isTruthy then
        return .bool (← r.eval strict env line mode).isTruthy
      else return .bool false
  | binary .orElse l r => do
      if (← l.eval strict env line mode).isTruthy then return .bool true
      else return .bool (← r.eval strict env line mode).isTruthy
  | binary op l r => do
      let a ← l.eval strict env line mode
      let b ← r.eval strict env line mode
      op.eval strict line a b
  | cond test yes no => do
      if (← test.eval strict env line .optional).isTruthy then yes.eval strict env line mode
      else no.eval strict env line mode

end MailTemplate
