import MailTemplate.Token.Lexeme

/-!
# Code lines

What the reader of a template asks about one line inside a code block: where the block's braces
close, whether the line is a statement or template text, and whether it goes on with the statement
of the line before.
-/

namespace MailTemplate

open Text

/-- A line of code read at some brace depth. -/
inductive CodeScan where
  /-- The depth came back to zero: the text before that brace and behind it. -/
  | closed (before after : List Char)
  /-- The block stays open, and the line ends with the given token. -/
  | opened (depth : Nat) (last : Option Token)

/-- The scan of a text that has `front` before the scanned part. -/
def CodeScan.after (front : List Char) : CodeScan → CodeScan
  | closed before rest => closed (front ++ before) rest
  | opened depth last => opened depth last

/-- Counts braces from `depth` on, up to the one that closes the outermost block. -/
def scanCode (depth : Nat) (last : Option Token) (cs : List Char) : Except SyntaxCause CodeScan :=
  match h : Lexeme.next? cs with
  | .error e => .error e
  | .ok none => .ok (.opened depth last)
  | .ok (some (l, rest)) =>
      have := Lexeme.length_of_next? h
      let go (depth : Nat) :=
        (scanCode depth (some l.token) rest).map (.after (l.gap ++ l.spelling))
      match l.token with
      | .symbol .openBrace => go (depth + 1)
      | .symbol .closeBrace =>
          if depth ≤ 1 then .ok (.closed l.gap rest) else go (depth - 1)
      | _ => go depth
termination_by cs.length

/-- The first token of a text, if it can be read. -/
def firstToken? (cs : List Char) : Option (Token × List Char) :=
  match Lexeme.next? cs with
  | .ok (some (l, rest)) => some (l.token, rest)
  | _ => none

/-- Whether a line starts a statement or is a comment, rather than template text. Only the first two
tokens matter. -/
def isStatement (cs : List Char) : Bool :=
  startsComment (trimStart cs) ||
    match firstToken? cs with
    | none => false
    | some (first, rest) =>
        first.startsStatement ||
          match first, firstToken? rest with
          | .ident _, some (second, _) => second.isAssignment
          | _, _ => false

/-- Whether a line starts with an operator that only continues an expression. -/
def leadsWithOperator (cs : List Char) : Bool :=
  match firstToken? cs with
  | some (first, _) => first.continuesExpression
  | none => false

/-- Keywords that an open parenthesis has to follow. -/
def Token.takesParen : Token → Bool
  | .keyword .ifThen | .keyword .forLoop | .keyword .forEach | .keyword .whileLoop => true
  | _ => false

/-- Why a line that starts like an `if` or a loop cannot be one; then it is most likely template
text without its marker. -/
def keywordText? (cs : List Char) : Option SyntaxCause :=
  match firstToken? cs with
  | none => none
  | some (first, rest) =>
      if first.takesParen then
        let cause := match Lexeme.next? rest with
          | .ok none => none
          | .ok (some (⟨_, _, .symbol .openParen⟩, _)) =>
              match tokens cs with
              | .ok _ => none
              | .error e => some e
          | .ok (some (l, _)) => some (.unexpectedToken (.symbol .openParen) l.token)
          | .error e => some e
        cause.map (.textInCodeBlock (String.ofList (trim cs)))
      else none

/-- Fails unless a text is blank or a comment. -/
def checkTrailing (cs : List Char) : Except SyntaxCause Unit :=
  let rest := trim cs
  match Lexeme.next? rest with
  | .ok none => .ok ()
  | _ => .error (.trailingContent (String.ofList rest))

end MailTemplate
