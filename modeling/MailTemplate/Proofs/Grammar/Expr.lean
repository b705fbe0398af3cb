import MailTemplate.Instruction.Piece

/-!
# The grammar of expressions

Which pieces make up which expression. A conditional is loosest; the levels of the binary operators
follow, each of them left-associative over the next tighter one, then prefix operators, then members
and indexes.

* A conditional takes any expressions between and behind its two symbols.
* A member of a path is the longer path, also when the path stood in parentheses.
-/

namespace MailTemplate

/-- How loosely an expression binds, from the tightest to the loosest. Level zero of the binary
operators has no operators. -/
inductive Rank where
  | primary
  | selection
  | unary
  | binary (level : Nat)
  | expr

/-- `ExprForm t ps e`: the pieces `ps` are an expression of rank `t`, and it means `e`. -/
inductive ExprForm : Rank → List Piece → Expr → Prop
  | number {l x} : ExprForm .primary [.token l (.number x)] (.number x)
  | string {l s} : ExprForm .primary [.token l (.string s)] (.string s)
  | trueLit {l} : ExprForm .primary [.token l (.keyword .trueLit)] (.bool true)
  | falseLit {l} : ExprForm .primary [.token l (.keyword .falseLit)] (.bool false)
  | nullLit {l} : ExprForm .primary [.token l (.keyword .nullLit)] .null
  | ident {l name} : ExprForm .primary [.token l (.ident name)] (.path [name])
  | parens {ps e} (l l' : Nat) : ExprForm .expr ps e →
      ExprForm .primary (.token l (.symbol .openParen) :: ps ++ [.token l' (.symbol .closeParen)]) e
  | primary {ps e} : ExprForm .primary ps e → ExprForm .selection ps e
  | member {ps e name} (l l' : Nat) : ExprForm .selection ps e →
      ExprForm .selection (ps ++ [.token l (.symbol .dot), .token l' (.ident name)]) (e.select name)
  | index {ps qs e i} (l l' : Nat) : ExprForm .selection ps e → ExprForm .expr qs i →
      ExprForm .selection
        (ps ++ .token l (.symbol .openBracket) :: qs ++ [.token l' (.symbol .closeBracket)])
        (.index e i)
  | selection {ps e} : ExprForm .selection ps e → ExprForm .unary ps e
  | unary {ps e} (l : Nat) (op : UnaryOp) : ExprForm .unary ps e →
      ExprForm .unary (.token l (.symbol op.symbol) :: ps) (.unary op e)
  | operand {ps e} : ExprForm .unary ps e → ExprForm (.binary 0) ps e
  | tighter {n ps e} : ExprForm (.binary n) ps e → ExprForm (.binary (n + 1)) ps e
  | binary {n ps qs a b} (l : Nat) (op : BinaryOp) : op.level = n + 1 →
      ExprForm (.binary (n + 1)) ps a → ExprForm (.binary n) qs b →
      ExprForm (.binary (n + 1)) (ps ++ .token l (.symbol op.symbol) :: qs) (.binary op a b)
  | loosest {ps e} : ExprForm (.binary BinaryOp.maxLevel) ps e → ExprForm .expr ps e
  | cond {ps qs rs test yes no} (l l' : Nat) : ExprForm (.binary BinaryOp.maxLevel) ps test →
      ExprForm .expr qs yes → ExprForm .expr rs no →
      ExprForm .expr
        (ps ++ .token l (.symbol .question) :: qs ++ .token l' (.symbol .colon) :: rs)
        (.cond test yes no)

def Piece.isToken : Piece → Bool
  | token .. => true
  | text .. => false

theorem ExprForm.isToken {t : Rank} {ps : List Piece} {e : Expr} (h : ExprForm t ps e) :
    ps.all Piece.isToken = true := by
  induction h with
  | number | string | trueLit | falseLit | nullLit | ident => rfl
  | _ => simp_all [Piece.isToken]

end MailTemplate
