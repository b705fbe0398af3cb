import MailTemplate.Fragment
import MailTemplate.Text.Lines

/-!
# Templates

A template as its lines: text lines, and the lines of statements that belong to code blocks.
-/

namespace MailTemplate

open Text

/-- A line of a template, with its number in the source counted from one. -/
inductive Line where
  /-- Text, on its own or within a code block. -/
  | text (number : Nat) (fragments : List Fragment) (block : Option Nat)
  /-- Statements of a code block, without the markers of the block. -/
  | code (number : Nat) (text : String) (block : Nat)
  deriving Repr

namespace Line

def number : Line → Nat
  | text n _ _ | code n _ _ => n

/-- The code block that the line belongs to; blocks are counted from zero. -/
def block : Line → Option Nat
  | text _ _ b => b
  | code _ _ b => some b

end Line

/-- The lines of a template that hold something, how many lines its source has, and how they end. -/
structure Template where
  lines : List Line
  lineCount : Nat
  ending : LineEnding
  deriving Repr

end MailTemplate
