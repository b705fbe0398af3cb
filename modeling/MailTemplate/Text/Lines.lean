/-!
# Lines of a text

A text is cut at its line feeds, and each line drops one carriage return from its end. The texts of
the lines together with their ending make up the text again when all lines end alike.
-/

namespace MailTemplate.Text

/-- The pieces of a text between its line feeds; a text without one is a single piece. -/
def splitLines : List Char → List (List Char)
  | [] => [[]]
  | c :: cs =>
      if c = '\n' then [] :: splitLines cs
      else match splitLines cs with
        | [] => [[c]]
        | l :: ls => (c :: l) :: ls

/-- The line without one carriage return at its end. -/
def dropReturn (cs : List Char) : List Char :=
  if cs.getLast? = some '\r' then cs.dropLast else cs

/-- The lines of a text, without their endings. -/
def linesOf (s : String) : List (List Char) := (splitLines s.toList).map dropReturn

inductive LineEnding where
  | lf
  | crlf
  deriving Repr, DecidableEq, Inhabited

namespace LineEnding

def chars : LineEnding → List Char
  | lf => ['\n']
  | crlf => ['\r', '\n']

def text (e : LineEnding) : String := String.ofList e.chars

/-- Whether a carriage return with a line feed behind it occurs. -/
def hasReturn : List Char → Bool
  | '\r' :: '\n' :: _ => true
  | _ :: cs => hasReturn cs
  | [] => false

/-- A document that holds a carriage return before a line feed ends its lines with both. -/
def ofText (s : String) : LineEnding := if hasReturn s.toList then crlf else lf

end LineEnding

theorem splitLines_ne_nil (cs : List Char) : splitLines cs ≠ [] := by
  induction cs with
  | nil => simp [splitLines]
  | cons c cs ih =>
      simp only [splitLines]
      split
      · simp
      · split <;> simp

end MailTemplate.Text
