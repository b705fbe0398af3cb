import MailTemplate.Expr.Basic
import MailTemplate.Text.Lines

/-!
# Instructions

What a compiled template does, step by step. Each step knows the source line it came from.
-/

namespace MailTemplate

open Text

inductive AssignOp where
  | set
  | add
  | sub
  | mul
  | div
  deriving Repr, DecidableEq

namespace AssignOp

/-- The operator that a compound assignment applies to the old value and the new one. -/
def binary? : AssignOp → Option BinaryOp
  | set => none
  | add => some .add
  | sub => some .sub
  | mul => some .mul
  | div => some .div

def symbol : AssignOp → Symbol
  | set => .assign
  | add => .addTo
  | sub => .subtractFrom
  | mul => .multiplyBy
  | div => .divideBy

/-- The assignment that a symbol stands for between a variable and an expression. -/
def ofSymbol? : Symbol → Option AssignOp
  | .assign => some set
  | .addTo => some add
  | .subtractFrom => some sub
  | .multiplyBy => some mul
  | .divideBy => some div
  | _ => none

end AssignOp

/-- A declaration of a variable, or an assignment to one. -/
inductive Change where
  | declare (line : Nat) (name : String) (value : Option Expr)
  | assign (line : Nat) (name : String) (op : AssignOp) (value : Expr)
  deriving Repr, BEq

def Change.line : Change → Nat
  | declare line .. | assign line .. => line

mutual

inductive Instruction where
  | literal (line : Nat) (text : String)
  | value (line : Nat) (e : Expr)
  | newline (line : Nat)
  | change (c : Change)
  | choose (line : Nat) (arms : Arms)
  | forLoop (line : Nat) (init : Option Change) (test : Option Expr) (step : Option Change)
      (body : List Instruction)
  | forEach (line : Nat) (name : String) (e : Expr) (body : List Instruction)
  | whileLoop (line : Nat) (test : Expr) (body : List Instruction)
  | scope (line : Nat) (body : List Instruction)

/-- The arms of a choice: tested in turn, with an optional body when all tests fail. -/
inductive Arms where
  | done
  | otherwise (body : List Instruction)
  | test (e : Expr) (body : List Instruction) (next : Arms)

end

deriving instance Repr, BEq for Instruction, Arms

structure Program where
  instructions : List Instruction
  ending : LineEnding
  deriving Repr, BEq

end MailTemplate
