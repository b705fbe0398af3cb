import MailTemplate.Template.Reader
import MailTemplate.Instruction.Parser

/-!
# Compiling a template

A text line becomes one instruction for each fragment, and ends with a newline unless it is the
last line of the source. The lines of a code block, text lines among them, are read together as
statements.
-/

namespace MailTemplate

namespace Fragment

/-- The instruction that a fragment of a text line stands for. -/
def toInstruction (line : Nat) : Fragment → Except SyntaxError Instruction
  | literal text => .ok (.literal line text)
  | reference path => .ok (.value line (.path path))
  | expression text => (Expr.ofText line text.toList).map (.value line)

end Fragment

def textInstructions (number : Nat) (fragments : List Fragment) (isLast : Bool) :
    Except SyntaxError (List Instruction) := do
  let output ← fragments.mapM (·.toInstruction number)
  return if isLast then output else output ++ [.newline number]

namespace Line

/-- What a line adds to the statements it stands among. -/
def pieces (lineCount : Nat) : Line → Except SyntaxError (List Piece)
  | text number fragments _ => do
      return [.text number (← textInstructions number fragments (number == lineCount))]
  | code number statements _ => Piece.ofCode number statements.toList

def lastNumber (ls : List Line) : Nat := (ls.getLast?.map number).getD 0

/-- The instructions of lines that are read together: all lines of a code block, or neighbouring
text lines outside of blocks, each of which is a statement of its own. -/
def compileGroup (lineCount : Nat) (ls : List Line) : Except SyntaxError (List Instruction) := do
  let ps ← ls.mapM (·.pieces lineCount)
  parseBlock (lastNumber ls) ps.flatten

end Line

namespace Template

/-- The lines in groups: neighbours of one block together, and neighbours of none. -/
def groups (t : Template) : List (List Line) := t.lines.splitBy fun a b => a.block == b.block

def compile (t : Template) : Except SyntaxError Program := do
  let is ← t.groups.mapM (Line.compileGroup t.lineCount)
  return ⟨is.flatten, t.ending⟩

end Template

def Program.ofSource (source : String) : Except SyntaxError Program := do
  (← Template.ofSource source).compile

end MailTemplate
