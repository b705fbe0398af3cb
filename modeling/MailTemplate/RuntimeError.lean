import MailTemplate.Expr.Basic
import MailTemplate.Value.Basic

/-!
# Runtime errors

Why a compiled template cannot be rendered, how each reason reads, and the warnings that a strict
render gives.
-/

namespace MailTemplate

/-- The name of the variable that holds the model in every template. -/
def modelName : String := "Model"

/-- A part of the model that is asked for and missing. -/
inductive MissingPath where
  /-- The names from the root up to the first one that is missing. -/
  | names (segments : List String)
  | key (name : String)
  deriving Repr, DecidableEq

def MissingPath.text : MissingPath → String
  | names segments => ".".intercalate segments
  | key name => "[" ++ Text.quoted name ++ "]"

inductive FaultClass where
  | type
  | path
  | evaluation
  deriving Repr, DecidableEq

def FaultClass.label : FaultClass → String
  | type => "type error"
  | path => "path not found"
  | evaluation => "evaluation error"

inductive FaultCause where
  | operands (op : BinaryOp) (left right : Kind)
  | negation (operand : Kind)
  | indexKinds (base position : Kind)
  | objectPosition
  | missing (path : MissingPath)
  | outOfRange (position : Float) (count : Nat)
  | reserved
  /-- There is no scope that a variable could be declared in. -/
  | noScope
  | alreadyDeclared (name : String)
  | modelMember (name : String)
  | undeclared (name : String)
  | noText (kind : Kind)
  | noSequence (kind : Kind)
  | iterationLimit (limit : Nat)
  deriving Repr

namespace FaultCause

def faultClass : FaultCause → FaultClass
  | operands .. | negation _ | indexKinds .. | objectPosition => .type
  | missing _ => .path
  | _ => .evaluation

def message : FaultCause → String
  | operands op left right =>
      "operator `" ++ op.spelling ++ "` cannot be applied to " ++ left.name ++ " and " ++ right.name
  | negation operand => "cannot negate a " ++ operand.name
  | indexKinds base position => "cannot index a " ++ base.name ++ " with a " ++ position.name
  | objectPosition => "cannot index an object with a number"
  | missing path => path.text
  | outOfRange position count =>
      "index " ++ Number.written position ++ " is out of range for a list of " ++ toString count
  | reserved => "`" ++ modelName ++ "` is reserved"
  | noScope => "no scope to declare a variable in"
  | alreadyDeclared name => "variable `" ++ name ++ "` is already declared in this scope"
  | modelMember name => "cannot assign to model member `" ++ name ++ "`"
  | undeclared name => "assignment to undeclared variable `" ++ name ++ "`"
  | noText kind => "cannot render a " ++ kind.name ++ " as text"
  | noSequence kind => "cannot iterate over a " ++ kind.name
  | iterationLimit limit => "loop iteration limit of " ++ toString limit ++ " exceeded"

end FaultCause

/-- A runtime error and the line of the instruction that was executed. -/
structure RuntimeError where
  line : Nat
  cause : FaultCause
  deriving Repr

def RuntimeError.message (e : RuntimeError) : String :=
  e.cause.faultClass.label ++ " at line " ++ toString e.line ++ ": " ++ e.cause.message

/-- Something suspicious that a strict render reports. -/
inductive WarningCause where
  | divisionByZero (dividend : Float) (op : BinaryOp)
  deriving Repr

def WarningCause.message : WarningCause → String
  | divisionByZero dividend op =>
      "division by zero (`" ++ Number.plain dividend ++ " " ++ op.spelling ++ " 0`)"

structure Warning where
  line : Nat
  cause : WarningCause
  deriving Repr

end MailTemplate
