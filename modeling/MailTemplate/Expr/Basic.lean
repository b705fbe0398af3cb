import MailTemplate.Token.Basic

/-!
# Expressions

Expressions of the template language, their operators, and how tightly these bind.
-/

namespace MailTemplate

inductive BinaryOp where
  | add
  | sub
  | mul
  | div
  | rem
  | equal
  | notEqual
  | less
  | greater
  | atMost
  | atLeast
  | andAlso
  | orElse
  deriving Repr, DecidableEq

namespace BinaryOp

def symbol : BinaryOp → Symbol
  | add => .plus
  | sub => .minus
  | mul => .star
  | div => .slash
  | rem => .percent
  | equal => .equal
  | notEqual => .notEqual
  | less => .less
  | greater => .greater
  | atMost => .atMost
  | atLeast => .atLeast
  | andAlso => .andAlso
  | orElse => .orElse

def spelling (op : BinaryOp) : String := String.ofList op.symbol.spelling

/-- The operator that a symbol stands for between two operands. -/
def ofSymbol? : Symbol → Option BinaryOp
  | .plus => some add
  | .minus => some sub
  | .star => some mul
  | .slash => some div
  | .percent => some rem
  | .equal => some equal
  | .notEqual => some notEqual
  | .less => some less
  | .greater => some greater
  | .atMost => some atMost
  | .atLeast => some atLeast
  | .andAlso => some andAlso
  | .orElse => some orElse
  | _ => none

/-- How loosely an operator binds: the operands of one level hold operators of lower levels only. -/
def level : BinaryOp → Nat
  | mul | div | rem => 1
  | add | sub => 2
  | less | greater | atMost | atLeast => 3
  | equal | notEqual => 4
  | andAlso => 5
  | orElse => 6

def maxLevel : Nat := 6

/-- The operator of one level that a symbol stands for. -/
def atLevel? (n : Nat) (s : Symbol) : Option BinaryOp := (ofSymbol? s).filter (·.level == n)

theorem ofSymbol?_symbol (op : BinaryOp) : ofSymbol? op.symbol = some op := by cases op <;> rfl

theorem ofSymbol?_eq_some_iff {s : Symbol} {op : BinaryOp} :
    ofSymbol? s = some op ↔ s = op.symbol := by
  constructor
  · intro h
    cases s <;> simp [ofSymbol?] at h <;> subst h <;> rfl
  · rintro rfl
    exact ofSymbol?_symbol op

end BinaryOp

inductive UnaryOp where
  | not
  | neg
  deriving Repr, DecidableEq

namespace UnaryOp

def symbol : UnaryOp → Symbol
  | not => .bang
  | neg => .minus

end UnaryOp

inductive Expr where
  | number (value : Float)
  | string (text : String)
  | bool (b : Bool)
  | null
  /-- `a.b.c`: a variable or model member, and members below it. -/
  | path (segments : List String)
  /-- A member of what an expression that is no path gives. -/
  | member (base : Expr) (name : String)
  | index (base position : Expr)
  | unary (op : UnaryOp) (operand : Expr)
  | binary (op : BinaryOp) (left right : Expr)
  | cond (test yes no : Expr)
  deriving Repr, BEq

/-- The member `name` of an expression; of a path it is a longer path. -/
def Expr.select : Expr → String → Expr
  | path segments, name => path (segments ++ [name])
  | base, name => member base name

end MailTemplate
