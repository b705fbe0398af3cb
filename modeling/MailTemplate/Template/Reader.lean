import MailTemplate.Template.Basic
import MailTemplate.Template.Code

/-!
# Reading a template

A line that starts with `@` and an open brace begins a code block, unless it holds a single inline
expression. The block's braces are counted over its code lines, and the block ends at the brace that
balances its opener. Inside a block, `@:` marks a text line, and so is a line that starts no
statement, unless it goes on with the statement before it.
-/

namespace MailTemplate

open Text

/-- The code block that the reader is in. -/
structure OpenBlock where
  depth : Nat
  openedAt : Nat
  index : Nat
  /-- The last code line ended in the middle of an expression. -/
  continued : Bool
  /-- The last code line ended with a statement that has no terminator. -/
  pending : Bool
  deriving Repr, DecidableEq

/-- What the lines read so far leave behind: how many blocks began, and the one still open. -/
structure Reader where
  blocks : Nat
  current : Option OpenBlock
  deriving Repr, DecidableEq

namespace Reader

def start : Reader := ⟨0, none⟩

/-- The block after a code line whose last token is `last`. -/
def afterCode (b : OpenBlock) (depth : Nat) (last : Option Token) : OpenBlock :=
  { b with
    depth
    continued := last.any Token.expectsMore
    pending := last.any fun t => !t.endsStatement }

def textLine (number : Nat) (cs : List Char) (block : Option Nat) :
    Except SyntaxCause (Option Line) :=
  (Fragment.ofLine cs).map fun fs => some (.text number fs block)

/-- A code line is kept only if it holds something. -/
def codeLine (number : Nat) (cs : List Char) (block : Nat) : Option Line :=
  if allBlank cs then none else some (.code number (String.ofList cs) block)

/-- A line that begins with the opening marker of a block, given without it. -/
def openLine (r : Reader) (number : Nat) (line rest : List Char) :
    Except SyntaxCause (Option Line × Reader) := do
  match ← scanCode 1 none rest with
  | .closed before after =>
      if isStatement before then
        checkTrailing after
        return (codeLine number before r.blocks, ⟨r.blocks + 1, none⟩)
      else
        return (← textLine number line none, r)
  | .opened depth last =>
      let b := afterCode ⟨depth, number, r.blocks, false, false⟩ depth last
      return (codeLine number rest r.blocks, ⟨r.blocks + 1, some b⟩)

def statementLine (r : Reader) (b : OpenBlock) (number : Nat) (line : List Char) :
    Except SyntaxCause (Option Line × Reader) := do
  match ← scanCode b.depth none line with
  | .closed before after =>
      checkTrailing after
      return (codeLine number before b.index, ⟨r.blocks, none⟩)
  | .opened depth last =>
      return (codeLine number line b.index, ⟨r.blocks, some (afterCode b depth last)⟩)

def innerLine (r : Reader) (b : OpenBlock) (number : Nat) (line : List Char) :
    Except SyntaxCause (Option Line × Reader) :=
  let content := trim line
  if content.isEmpty then .ok (none, r)
  else if b.continued || (b.pending && leadsWithOperator content) then
    r.statementLine b number line
  else match trimStart line with
    | '@' :: ':' :: rest => (textLine number rest (some b.index)).map (·, r)
    | _ =>
        if isStatement content then
          match keywordText? content with
          | some cause => .error cause
          | none => r.statementLine b number line
        else (textLine number line (some b.index)).map (·, r)

/-- Reads one line: what it gives, if anything, and the reader behind it. -/
def step (r : Reader) (number : Nat) (line : List Char) :
    Except SyntaxCause (Option Line × Reader) :=
  match r.current with
  | some b => r.innerLine b number line
  | none =>
      match trimStart line with
      | '@' :: '{' :: rest => r.openLine number line rest
      | _ => (textLine number line none).map (·, r)

/-- Reads lines, of which the first has the given number. -/
def run (r : Reader) (number : Nat) : List (List Char) → Except SyntaxError (List Line × Reader)
  | [] => .ok ([], r)
  | l :: ls =>
      match r.step number l with
      | .error cause => .error ⟨number, cause⟩
      | .ok (line, r) =>
          match r.run (number + 1) ls with
          | .error e => .error e
          | .ok (lines, r) => .ok (line.toList ++ lines, r)

end Reader

/-- Reads the source of a template. A block left open is an error at the line where it began. -/
def Template.ofSource (source : String) : Except SyntaxError Template :=
  let lines := linesOf source
  match Reader.start.run 1 lines with
  | .error e => .error e
  | .ok (_, ⟨_, some b⟩) => .error ⟨b.openedAt, .unterminatedBlock b.openedAt⟩
  | .ok (ls, ⟨_, none⟩) => .ok ⟨ls, lines.length, LineEnding.ofText source⟩

end MailTemplate
