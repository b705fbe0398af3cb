import MailTemplate.Instruction.Piece

/-!
# Reading expressions

Expressions are read from the front of the pieces of a code block. A conditional binds more loosely
than all binary operators, these bind by their level and to the left, prefix operators bind tighter,
and members and indexes bind tightest.
-/

namespace MailTemplate

def Token.atom? : Token → Option Expr
  | number x => some (.number x)
  | string s => some (.string s)
  | keyword .trueLit => some (.bool true)
  | keyword .falseLit => some (.bool false)
  | keyword .nullLit => some .null
  | ident name => some (.path [name])
  | _ => none

variable (last : Nat)

mutual

def parseExpr (ps : List Piece) : Except SyntaxError (Parsed Expr ps) := do
  let ⟨(test, rest), h⟩ ← parseBinary BinaryOp.maxLevel ps
  match takeSymbol? .question rest with
  | none => return ⟨(test, rest), h⟩
  | some ⟨rest, h₁⟩ =>
      let ⟨(yes, rest), h₂⟩ ← parseExpr rest
      let ⟨rest, h₃⟩ ← expectSymbol last .colon rest
      let ⟨(no, rest), h₄⟩ ← parseExpr rest
      return ⟨(.cond test yes no, rest), by simp only at *; omega⟩
termination_by (ps.length, 10)
decreasing_by all_goals (simp only [Prod.lex_def, BinaryOp.maxLevel, true_and] at *; omega)

/-- Reads operators of levels up to `n`. -/
def parseBinary (n : Nat) (ps : List Piece) : Except SyntaxError (Parsed Expr ps) :=
  match n with
  | 0 => parseUnary ps
  | n + 1 => do
      let ⟨(left, rest), h⟩ ← parseBinary n ps
      let ⟨(e, rest), h'⟩ ← parseOperators (n + 1) left rest
      return ⟨(e, rest), by simp only at *; omega⟩
termination_by (ps.length, n + 3)
decreasing_by all_goals (simp only [Prod.lex_def, true_and] at *; omega)

/-- Reads operators of level `n` with their right operands, after the operand `left`. -/
def parseOperators (n : Nat) (left : Expr) (ps : List Piece) :
    Except SyntaxError { r : Expr × List Piece // r.2.length ≤ ps.length } :=
  match ps with
  | .token l (.symbol s) :: rest =>
      match BinaryOp.atLevel? n s with
      | none => .ok ⟨(left, .token l (.symbol s) :: rest), Nat.le_refl _⟩
      | some op => do
          let ⟨(right, rest), h⟩ ← parseBinary (n - 1) rest
          let ⟨r, h'⟩ ← parseOperators n (.binary op left right) rest
          return ⟨r, by simp only [List.length_cons] at *; omega⟩
  | ps => .ok ⟨(left, ps), Nat.le_refl _⟩
termination_by (ps.length, 0)
decreasing_by all_goals (simp only [Prod.lex_def, List.length_cons] at *; omega)

def parseUnary (ps : List Piece) : Except SyntaxError (Parsed Expr ps) :=
  match ps with
  | .token _ (.symbol .bang) :: rest => do
      let ⟨(e, rest), h⟩ ← parseUnary rest
      return ⟨(.unary .not e, rest), Nat.lt_succ_of_lt h⟩
  | .token _ (.symbol .minus) :: rest => do
      let ⟨(e, rest), h⟩ ← parseUnary rest
      return ⟨(.unary .neg e, rest), Nat.lt_succ_of_lt h⟩
  | ps => do
      let ⟨(e, rest), h⟩ ← parsePrimary ps
      let ⟨r, h'⟩ ← parseSelectors e rest
      return ⟨r, by simp only at *; omega⟩
termination_by (ps.length, 2)
decreasing_by all_goals (simp only [Prod.lex_def, List.length_cons, true_and] at *; omega)

/-- Reads members and indexes behind the expression `base`. -/
def parseSelectors (base : Expr) (ps : List Piece) :
    Except SyntaxError { r : Expr × List Piece // r.2.length ≤ ps.length } :=
  match ps with
  | .token _ (.symbol .dot) :: rest => do
      let ⟨(name, rest), h⟩ ← expectIdent last .memberName rest
      let ⟨r, h'⟩ ← parseSelectors (base.select name) rest
      return ⟨r, by simp only [List.length_cons] at *; omega⟩
  | .token _ (.symbol .openBracket) :: rest => do
      let ⟨(position, rest), h⟩ ← parseExpr rest
      let ⟨rest, h₁⟩ ← expectSymbol last .closeBracket rest
      let ⟨r, h₂⟩ ← parseSelectors (.index base position) rest
      return ⟨r, by simp only [List.length_cons] at *; omega⟩
  | ps => .ok ⟨(base, ps), Nat.le_refl _⟩
termination_by (ps.length, 0)
decreasing_by all_goals (simp only [Prod.lex_def, List.length_cons] at *; omega)

/-- Reads a literal, a variable, or an expression in parentheses. -/
def parsePrimary (ps : List Piece) : Except SyntaxError (Parsed Expr ps) :=
  match ps with
  | .token _ (.symbol .openParen) :: rest => do
      let ⟨(e, rest), h⟩ ← parseExpr rest
      let ⟨rest, h₁⟩ ← expectSymbol last .closeParen rest
      return ⟨(e, rest), by simp only [List.length_cons] at *; omega⟩
  | .token l t :: rest =>
      match t.atom? with
      | some e => .ok ⟨(e, rest), Nat.lt_succ_self _⟩
      | none => .error (unexpected last .expression (.token l t :: rest))
  | ps => .error (unexpected last .expression ps)
termination_by (ps.length, 0)
decreasing_by all_goals (simp only [Prod.lex_def, List.length_cons] at *; omega)

end

/-- Reads a text that holds one expression, all of it on the given line. -/
def Expr.ofText (line : Nat) (cs : List Char) : Except SyntaxError Expr := do
  let ⟨(e, rest), _⟩ ← parseExpr line (← Piece.ofCode line cs)
  match rest with
  | [] => return e
  | rest => throw (unexpected line .endOfExpression rest)

end MailTemplate
