/-!
# Positions in a YAML text

A YAML text is read with an eye on columns, since indentation carries meaning. Line breaks are
line feeds, carriage returns, both together, and the characters U+0085, U+2028 and U+2029; all but
the last two read as line feeds.
-/

namespace MailTemplate.Yaml

/-- What is left of a text, and where. -/
structure Cursor where
  line : Nat
  column : Nat
  index : Nat
  rest : List Char
  deriving Repr

/-- Line breaks, in a text whose breaks are normal. -/
def isBreak (c : Char) : Bool := c == '\n' || c == '\u2028' || c == '\u2029'

def isSpace (c : Char) : Bool := c == ' ' || c == '\t'

/-- Whether a text starts with a blank or a break, or is at its end. -/
def atGap : List Char → Bool
  | [] => true
  | c :: _ => isSpace c || isBreak c

/-- The text with normal line breaks. -/
def normalBreaks : List Char → List Char
  | '\r' :: '\n' :: cs => '\n' :: normalBreaks cs
  | c :: cs => (if c = '\r' || c = '\u0085' then '\n' else c) :: normalBreaks cs
  | [] => []

def isAllowed (c : Char) : Bool :=
  let n := c.toNat
  n == 9 || n == 10 || n == 13 || (0x20 ≤ n && n ≤ 0x7E) || n == 0x85 || (0xA0 ≤ n && n ≤ 0xFFFD)
    || 0x10000 ≤ n

/-- What follows the rest of a line, in which only blanks and a comment may stand. -/
def lineEnd? (cs : List Char) : Option (List Char) :=
  let afterBlanks := cs.dropWhile isSpace
  let rest := match afterBlanks with
    | '#' :: _ => afterBlanks.dropWhile fun c => !isBreak c
    | cs => cs
  match rest with
  | [] => some []
  | c :: cs => if isBreak c then some cs else none

namespace Cursor

def start (cs : List Char) : Cursor := ⟨0, 0, 0, cs⟩

/-- The cursor behind the character `c`, in front of `rest`. -/
def next (p : Cursor) (c : Char) (rest : List Char) : Cursor :=
  if isBreak c then ⟨p.line + 1, 0, p.index + 1, rest⟩
  else ⟨p.line, p.column + 1, p.index + 1, rest⟩

/-- The cursor behind `n` characters, none of which is a break. -/
def advance (p : Cursor) (n : Nat) : Cursor :=
  ⟨p.line, p.column + n, p.index + n, p.rest.drop n⟩

/-- Whether three characters `c` and then a gap stand at the start of a line. -/
def atMarker (p : Cursor) (c : Char) : Bool :=
  p.column == 0 && (List.replicate 3 c).isPrefixOf p.rest && atGap (p.rest.drop 3)

/-- Whether a document starts or ends here. -/
def atDocumentMark (p : Cursor) : Bool := p.atMarker '-' || p.atMarker '.'

/-- Skips blanks, breaks and comments. Tabs are skipped as long as `tabs` says so, behind a break
only with `flow`. A line may start with a byte order mark, which is a blank of its own column. -/
def skipFrom (flow : Bool) : Bool → Bool → Cursor → List Char → Cursor
  | _, _, p, [] => { p with rest := [] }
  | tabs, comment, p, c :: cs =>
      if isBreak c then skipFrom flow flow false (p.next c cs) cs
      else if comment || c == ' ' || (tabs && c == '\t') || (p.column == 0 && c == '\ufeff') then
        skipFrom flow tabs comment (p.next c cs) cs
      else if c == '#' then skipFrom flow tabs true (p.next c cs) cs
      else { p with rest := c :: cs }

def skip (p : Cursor) (flow tabs : Bool) : Cursor := skipFrom flow tabs false p p.rest

end Cursor

end MailTemplate.Yaml
