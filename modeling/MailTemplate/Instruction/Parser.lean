import MailTemplate.Expr.Parser

/-!
# Reading statements

The statements of a code block, read from its pieces. A text line may stand anywhere a statement
may. An `else` belongs to the nearest `if` that can take it, and `else if` goes on with the same
choice.
-/

namespace MailTemplate

variable (last : Nat)

/-- Reads `var name` and an optional value. -/
def parseDeclaration (ps : List Piece) : Except SyntaxError (Parsed Change ps) := do
  let line := frontLine last ps
  let ⟨rest, h⟩ ← expectKeyword last .var ps
  let ⟨(name, rest), h₁⟩ ← expectIdent last .variableName rest
  match takeSymbol? .assign rest with
  | none => return ⟨(.declare line name none, rest), Nat.lt_trans h₁ h⟩
  | some ⟨rest, h₂⟩ =>
      let ⟨(e, rest), h₃⟩ ← parseExpr last rest
      return ⟨(.declare line name (some e), rest),
        Nat.lt_trans h₃ (Nat.lt_trans h₂ (Nat.lt_trans h₁ h))⟩

/-- The sign of an assignment: `++` and `--` complete it with a one, and all others take an
operand. -/
inductive AssignSign where
  | complete (op : AssignOp)
  | operand (op : AssignOp)

def AssignSign.ofSymbol? : Symbol → Option AssignSign
  | .increment => some (complete .add)
  | .decrement => some (complete .sub)
  | s => (AssignOp.ofSymbol? s).map operand

def expectAssignSign : (ps : List Piece) → Except SyntaxError (Parsed AssignSign ps)
  | .token line (.symbol s) :: rest =>
      match AssignSign.ofSymbol? s with
      | some sign => .ok ⟨(sign, rest), Nat.lt_succ_self _⟩
      | none => .error (unexpected last .assignmentOperator (.token line (.symbol s) :: rest))
  | ps => .error (unexpected last .assignmentOperator ps)

def parseAssignment (ps : List Piece) : Except SyntaxError (Parsed Change ps) := do
  let line := frontLine last ps
  let ⟨(name, rest), h⟩ ← expectIdent last .variableName ps
  let ⟨(sign, rest), h₁⟩ ← expectAssignSign last rest
  match sign with
  | .complete op => return ⟨(.assign line name op (.number 1), rest), Nat.lt_trans h₁ h⟩
  | .operand op =>
      let ⟨(e, rest), h₂⟩ ← parseExpr last rest
      return ⟨(.assign line name op e, rest), Nat.lt_trans h₂ (Nat.lt_trans h₁ h)⟩

/-- Reads an expression in parentheses. -/
def parseCondition (ps : List Piece) : Except SyntaxError (Parsed Expr ps) := do
  let ⟨rest, h⟩ ← expectSymbol last .openParen ps
  let ⟨(e, rest), h₁⟩ ← parseExpr last rest
  let ⟨rest, h₂⟩ ← expectSymbol last .closeParen rest
  return ⟨(e, rest), Nat.lt_trans h₂ (Nat.lt_trans h₁ h)⟩

/-- Reads what `read` reads, unless the symbol `stop` comes first. -/
def parseUnless {α : Type} (stop : Symbol)
    (read : (ps : List Piece) → Except SyntaxError (Parsed α ps)) (ps : List Piece) :
    Except SyntaxError { r : Option α × List Piece // r.2.length ≤ ps.length } :=
  match takeSymbol? stop ps with
  | some _ => .ok ⟨(none, ps), Nat.le_refl _⟩
  | none => do
      let ⟨(a, rest), h⟩ ← read ps
      return ⟨(some a, rest), Nat.le_of_lt h⟩

def parseChange (ps : List Piece) : Except SyntaxError (Parsed Change ps) :=
  match takeKeyword? .var ps with
  | some _ => parseDeclaration last ps
  | none => parseAssignment last ps

/-- The parts between the parentheses of a `for`. -/
structure ForHead where
  init : Option Change
  test : Option Expr
  step : Option Change

def parseForHead (ps : List Piece) : Except SyntaxError (Parsed ForHead ps) := do
  let ⟨rest, h⟩ ← expectSymbol last .openParen ps
  let ⟨(init, rest), h₁⟩ ← parseUnless .semicolon (parseChange last) rest
  let ⟨rest, h₂⟩ ← expectSymbol last .semicolon rest
  let ⟨(test, rest), h₃⟩ ← parseUnless .semicolon (parseExpr last) rest
  let ⟨rest, h₄⟩ ← expectSymbol last .semicolon rest
  let ⟨(step, rest), h₅⟩ ← parseUnless .closeParen (parseAssignment last) rest
  let ⟨rest, h₆⟩ ← expectSymbol last .closeParen rest
  return ⟨(⟨init, test, step⟩, rest), by simp only at *; omega⟩

/-- The optional word `var`. -/
def skipVar (ps : List Piece) : { rest : List Piece // rest.length ≤ ps.length } :=
  match takeKeyword? .var ps with
  | some ⟨rest, h⟩ => ⟨rest, Nat.le_of_lt h⟩
  | none => ⟨ps, Nat.le_refl _⟩

/-- Reads the loop variable and the sequence of a `foreach`. -/
def parseForEachHead (ps : List Piece) : Except SyntaxError (Parsed (String × Expr) ps) := do
  let ⟨rest, h⟩ ← expectSymbol last .openParen ps
  let ⟨rest, h₁⟩ := skipVar rest
  let ⟨(name, rest), h₂⟩ ← expectIdent last .loopVariable rest
  let ⟨rest, h₃⟩ ← expectKeyword last .inside rest
  let ⟨(e, rest), h₄⟩ ← parseExpr last rest
  let ⟨rest, h₅⟩ ← expectSymbol last .closeParen rest
  return ⟨((name, e), rest), by simp only at *; omega⟩

mutual

def parseStatement (ps : List Piece) : Except SyntaxError (Parsed (List Instruction) ps) :=
  match ps with
  | .text _ output :: rest => .ok ⟨(output, rest), Nat.lt_succ_self _⟩
  | .token _ (.symbol .semicolon) :: rest => .ok ⟨([], rest), Nat.lt_succ_self _⟩
  | .token line (.symbol .openBrace) :: rest => do
      let ⟨(body, rest), h⟩ ← parseBraced rest
      return ⟨([.scope line body], rest), Nat.lt_succ_of_lt h⟩
  | .token line (.keyword .var) :: rest => do
      let ⟨(c, rest), h⟩ ← parseDeclaration last (.token line (.keyword .var) :: rest)
      let ⟨rest, h₁⟩ ← expectSymbol last .semicolon rest
      return ⟨([.change c], rest), Nat.lt_trans h₁ h⟩
  | .token line (.ident name) :: rest => do
      let ⟨(c, rest), h⟩ ← parseAssignment last (.token line (.ident name) :: rest)
      let ⟨rest, h₁⟩ ← expectSymbol last .semicolon rest
      return ⟨([.change c], rest), Nat.lt_trans h₁ h⟩
  | .token line (.keyword .ifThen) :: rest => do
      let ⟨(arms, rest), h⟩ ← parseArms rest
      return ⟨([.choose line arms], rest), Nat.lt_succ_of_lt h⟩
  | .token line (.keyword .forLoop) :: rest => do
      let ⟨(head, rest), h⟩ ← parseForHead last rest
      let ⟨(body, rest), h₁⟩ ← parseBody rest
      return ⟨([.forLoop line head.init head.test head.step body], rest),
        Nat.lt_succ_of_lt (Nat.lt_trans h₁ h)⟩
  | .token line (.keyword .forEach) :: rest => do
      let ⟨((name, e), rest), h⟩ ← parseForEachHead last rest
      let ⟨(body, rest), h₁⟩ ← parseBody rest
      return ⟨([.forEach line name e body], rest), Nat.lt_succ_of_lt (Nat.lt_trans h₁ h)⟩
  | .token line (.keyword .whileLoop) :: rest => do
      let ⟨(test, rest), h⟩ ← parseCondition last rest
      let ⟨(body, rest), h₁⟩ ← parseBody rest
      return ⟨([.whileLoop line test body], rest), Nat.lt_succ_of_lt (Nat.lt_trans h₁ h)⟩
  | ps => .error (unexpected last .statement ps)
termination_by (ps.length, 0)
decreasing_by all_goals (simp only [Prod.lex_def, List.length_cons] at *; omega)

/-- Reads statements up to a closing brace. -/
def parseBraced (ps : List Piece) : Except SyntaxError (Parsed (List Instruction) ps) :=
  match ps with
  | [] => .error (unexpected last (.symbol .closeBrace) [])
  | .token line t :: rest =>
      if t matches .symbol .closeBrace then .ok ⟨([], rest), Nat.lt_succ_self _⟩
      else do
        let ⟨(first, rest), h⟩ ← parseStatement (.token line t :: rest)
        let ⟨(more, rest), h₁⟩ ← parseBraced rest
        return ⟨(first ++ more, rest), Nat.lt_trans h₁ h⟩
  | .text _ output :: rest => do
      let ⟨(more, rest), h⟩ ← parseBraced rest
      return ⟨(output ++ more, rest), Nat.lt_succ_of_lt h⟩
termination_by (ps.length, 1)

/-- Reads statements in braces, or a single statement. -/
def parseBody (ps : List Piece) : Except SyntaxError (Parsed (List Instruction) ps) :=
  match takeSymbol? .openBrace ps with
  | some ⟨rest, h⟩ => do
      let ⟨(body, rest), h₁⟩ ← parseBraced rest
      return ⟨(body, rest), Nat.lt_trans h₁ h⟩
  | none => parseStatement ps
termination_by (ps.length, 1)

/-- Reads the condition and body of an `if`, and what `else` adds to them. -/
def parseArms (ps : List Piece) : Except SyntaxError (Parsed Arms ps) := do
  let ⟨(test, rest), h⟩ ← parseCondition last ps
  let ⟨(body, rest), h₁⟩ ← parseBody rest
  match takeKeyword? .orElse rest with
  | none => return ⟨(.test test body .done, rest), Nat.lt_trans h₁ h⟩
  | some ⟨rest, h₂⟩ =>
      match takeKeyword? .ifThen rest with
      | some ⟨rest, h₃⟩ =>
          let ⟨(next, rest), h₄⟩ ← parseArms rest
          return ⟨(.test test body next, rest),
            Nat.lt_trans h₄ (Nat.lt_trans h₃ (Nat.lt_trans h₂ (Nat.lt_trans h₁ h)))⟩
      | none =>
          let ⟨(otherwise, rest), h₃⟩ ← parseBody rest
          return ⟨(.test test body (.otherwise otherwise), rest),
            Nat.lt_trans h₃ (Nat.lt_trans h₂ (Nat.lt_trans h₁ h))⟩
termination_by (ps.length, 0)
decreasing_by all_goals (simp only [Prod.lex_def] at *; omega)

end

/-- Reads all statements of a code block, whose last piece is on the line `last`. -/
def parseBlock (ps : List Piece) : Except SyntaxError (List Instruction) :=
  match ps with
  | [] => .ok []
  | p :: ps => do
      let ⟨(first, rest), h⟩ ← parseStatement last (p :: ps)
      have : rest.length < (p :: ps).length := h
      return first ++ (← parseBlock rest)
termination_by ps.length
decreasing_by exact this

end MailTemplate
