import MailTemplate.Number.Digits
import MailTemplate.Yaml.Cursor

/-!
# YAML scalars

The five styles of scalars. Breaks inside of plain and quoted scalars are folded: one break
becomes a space, and of several the first is dropped. Block scalars keep their lines, or fold
those that are not indented further.
-/

namespace MailTemplate.Yaml

/-- The full name of a tag, which need not be a text. -/
abbrev Tag := List UInt8

inductive Style where
  | plain
  | quoted
  | literal
  | folded
  deriving Repr, DecidableEq

structure Scalar where
  style : Style
  tag : Option Tag
  text : String
  deriving Repr, DecidableEq

/-! ## Folding -/

/-- Blanks and breaks between two parts of a scalar, in reverse order. -/
inductive Gap where
  | blanks (reversed : List Char)
  /-- A first break, which an escape may have taken away, and the breaks behind it. -/
  | breaks (first : Option Char) (reversed : List Char)

namespace Gap

def none : Gap := blanks []

def addBlank (c : Char) : Gap → Gap
  | blanks cs => blanks (c :: cs)
  | g => g

def addBreak (c : Char) : Gap → Gap
  | blanks _ => breaks (some c) []
  | breaks first cs => breaks first (c :: cs)

def crossesLine : Gap → Bool
  | blanks _ => false
  | breaks .. => true

def isNone : Gap → Bool
  | blanks cs => cs.isEmpty
  | breaks .. => false

def folded : Gap → List Char
  | blanks cs => cs.reverse
  | breaks .none cs => cs.reverse
  | breaks (some c) cs =>
      if c = '\n' then if cs.isEmpty then [' '] else cs.reverse
      else c :: cs.reverse

end Gap

/-! ## Plain scalars -/

def isFlowIndicator (c : Char) : Bool :=
  c == ',' || c == '[' || c == ']' || c == '{' || c == '}'

def startsPlain (flow : Bool) : List Char → Bool
  | [] => false
  | c :: cs =>
      !(isSpace c || isBreak c || isFlowIndicator c
          || ['-', '?', ':', '#', '&', '*', '!', '|', '>', '\'', '"', '%', '@', '\x60'].contains c)
        || (c == '-' && !atGap cs)
        || (!flow && (c == '?' || c == ':') && !atGap cs)

/-- Reads a plain scalar whose lines are indented by at least `floor`: its text in reverse order,
and whether breaks follow it. -/
def readPlain (flow : Bool) (floor : Nat) (text : List Char) :
    Gap → Cursor → List Char → Option (List Char × Bool × Cursor)
  | gap, p, [] => some (text, gap.crossesLine, { p with rest := [] })
  | gap, p, c :: cs =>
      if isSpace c then
        if gap.crossesLine && p.column < floor && c == '\t' then .none
        else readPlain flow floor text (gap.addBlank c) (p.next c cs) cs
      else if isBreak c then readPlain flow floor text (gap.addBreak c) (p.next c cs) cs
      else
        let p := { p with rest := c :: cs }
        let stop := some (text, gap.crossesLine, p)
        let outside := !flow && gap.crossesLine && p.column < floor
        if !gap.isNone && (outside || p.atDocumentMark || c == '#') then stop
        else if flow && c == ':' && cs.head?.any fun d => isFlowIndicator d || d == '?' then .none
        else if (c == ':' && atGap cs) || (flow && isFlowIndicator c) then stop
        else readPlain flow floor (c :: (gap.folded.reverse ++ text)) Gap.none (p.next c cs) cs

/-! ## Quoted scalars -/

/-- The character that `n` hexadecimal digits stand for. -/
def hexEscape? (n : Nat) (cs : List Char) : Option (Char × Nat) :=
  if cs.length < n then none
  else
    match Number.ofDigitsIn? 16 (cs.take n) with
    | some v =>
        if (0xD800 ≤ v && v ≤ 0xDFFF) || 0x10FFFF < v then none else some (Char.ofNat v, n + 1)
    | none => none

/-- The escape at the front of a text, without its backslash: the character and how many it takes.
-/
def escape? : List Char → Option (Char × Nat)
  | [] => none
  | 'x' :: cs => hexEscape? 2 cs
  | 'u' :: cs => hexEscape? 4 cs
  | 'U' :: cs => hexEscape? 8 cs
  | c :: _ =>
      let table := [('0', '\x00'), ('a', '\x07'), ('b', '\x08'), ('t', '\t'), ('\t', '\t'),
        ('n', '\n'), ('v', '\x0b'), ('f', '\x0c'), ('r', '\r'), ('e', '\x1b'), (' ', ' '),
        ('"', '"'), ('/', '/'), ('\\', '\\'), ('N', '\u0085'), ('_', '\u00a0'), ('L', '\u2028'),
        ('P', '\u2029')]
      (table.lookup c).map (·, 1)

/-- Reads a scalar in single quotation marks, behind the first one. -/
def readSingle (text : List Char) : Gap → Cursor → List Char → Option (List Char × Cursor)
  | _, _, [] => none
  | gap, p, c :: cs =>
      if isSpace c then readSingle text (gap.addBlank c) (p.next c cs) cs
      else if isBreak c then readSingle text (gap.addBreak c) (p.next c cs) cs
      else if { p with rest := c :: cs : Cursor }.atDocumentMark then none
      else
        let text := gap.folded.reverse ++ text
        if c = '\'' then
          match cs with
          | '\'' :: cs => readSingle ('\'' :: text) Gap.none ((p.next c cs).next '\'' cs) cs
          | cs => some (text, p.next c cs)
        else readSingle (c :: text) Gap.none (p.next c cs) cs

/-- Reads a scalar in double quotation marks, behind the first one. -/
def readDouble (text : List Char) (gap : Gap) (p : Cursor) (cs : List Char) :
    Option (List Char × Cursor) :=
  match cs with
  | [] => none
  | c :: cs =>
      if isSpace c then readDouble text (gap.addBlank c) (p.next c cs) cs
      else if isBreak c then readDouble text (gap.addBreak c) (p.next c cs) cs
      else if { p with rest := c :: cs : Cursor }.atDocumentMark then none
      else
        let text := gap.folded.reverse ++ text
        if c = '"' then some (text, p.next c cs)
        else if c = '\\' then
          match cs with
          | [] => none
          | d :: ds =>
              if isBreak d then readDouble text (.breaks .none []) ((p.next c ds).next d ds) ds
              else
                match escape? (d :: ds) with
                | none => none
                | some (e, n) =>
                    readDouble (e :: text) Gap.none
                      { p with column := p.column + n + 1, index := p.index + n + 1 }
                      ((d :: ds).drop n)
        else readDouble (c :: text) Gap.none (p.next c cs) cs
termination_by cs.length
decreasing_by all_goals simp only [List.length_drop, List.length_cons]; omega

/-! ## Block scalars -/

/-- What a block scalar keeps of the breaks at its end. -/
inductive Chomping where
  | strip
  | clip
  | keep
  deriving Repr, DecidableEq

/-- Reads the indicators of a block scalar: how its end is chomped, and how far it is indented
beyond its parent. -/
def readBlockHeader (cs : List Char) : Option (Chomping × Option Nat × List Char) :=
  let chomping? : List Char → Option (Chomping × List Char)
    | '+' :: cs => some (.keep, cs)
    | '-' :: cs => some (.strip, cs)
    | _ => none
  let digit? : List Char → Option (Nat × List Char)
    | c :: cs => if c.isDigit then some (c.toNat - '0'.toNat, cs) else none
    | [] => none
  let result : Chomping × Option Nat × List Char :=
    match chomping? cs with
    | some (k, cs) =>
        match digit? cs with
        | some (n, cs) => (k, some n, cs)
        | none => (k, none, cs)
    | none =>
        match digit? cs with
        | some (n, cs) =>
            match chomping? cs with
            | some (k, cs) => (k, some n, cs)
            | none => (.clip, some n, cs)
        | none => (.clip, none, cs)
  if result.2.1 = some 0 then none else some result

/-- The lines of a text with their breaks; the last one has none. -/
def brokenLines : List Char → List (List Char × Option Char)
  | [] => [([], none)]
  | c :: cs =>
      if isBreak c then ([], some c) :: brokenLines cs
      else match brokenLines cs with
        | [] => [([c], none)]
        | (l, b) :: ls => (c :: l, b) :: ls

def joinLines (ls : List (List Char × Option Char)) : List Char :=
  ls.flatMap fun l => l.1 ++ l.2.toList

def indentation (cs : List Char) : Nat := (cs.takeWhile (· == ' ')).length

/-- The indentation of a block scalar without an indicator: that of its first line that is not
empty, or more if an empty line before it holds more spaces. -/
def detectIndent (most : Nat) : List (List Char × Option Char) → Option Nat
  | [] => some most
  | (l, b) :: ls =>
      let n := indentation l
      match l.drop n with
      | '\t' :: _ => none
      | [] => if b.isSome then detectIndent (max most n) ls else some (max most n)
      | _ => some (max most n)

/-- What has been read of a block scalar. -/
structure BlockText where
  /-- In reverse order. -/
  text : List Char
  /-- The break of the last line. -/
  lineBreak : List Char
  /-- The breaks of empty lines behind it, in reverse order. -/
  emptyLines : List Char
  /-- The last line is indented further than the scalar. -/
  deeper : Bool

/-- The block text with one more line, which is not empty. -/
def BlockText.addLine (keepLines : Bool) (t : BlockText) (line : List Char)
    (lineBreak : Option Char) : BlockText :=
  let deeper := line.head?.any isSpace
  let joint :=
    if !keepLines && t.lineBreak == ['\n'] && !t.deeper && !deeper then
      if t.emptyLines.isEmpty then [' '] else t.emptyLines
    else t.emptyLines ++ t.lineBreak
  ⟨line.reverse ++ joint ++ t.text, lineBreak.toList, [], deeper⟩

/-- Reads lines indented by at least `indent`, and the empty ones among them. -/
def readBlockLines (keepLines : Bool) (indent : Nat) (t : BlockText) :
    List (List Char × Option Char) → Option (BlockText × List (List Char × Option Char))
  | [] => some (t, [])
  | (l, b) :: ls =>
      let n := min indent (indentation l)
      match l.drop n with
      | [] =>
          match b with
          | some c => readBlockLines keepLines indent { t with emptyLines := c :: t.emptyLines } ls
          | none => some (t, [])
      | c :: line =>
          if n < indent then
            if c == '\t' then none else some (t, (l, b) :: ls)
          else readBlockLines keepLines indent (t.addLine keepLines (c :: line) b) ls

/-- Reads a block scalar behind its first character; its parent is indented by less than `floor`. -/
def readBlock (keepLines : Bool) (floor : Nat) (p : Cursor) : Option (String × Cursor) := do
  let (chomping, extra, cs) ← readBlockHeader p.rest
  let lines := brokenLines (← lineEnd? cs)
  let indent ← match extra with
    | some n => some (floor - 1 + n)
    | none => (detectIndent 0 lines).map fun n => max 1 (max n floor)
  let (t, rest) ← readBlockLines keepLines indent ⟨[], [], [], false⟩ lines
  let tail := match chomping with
    | .strip => []
    | .clip => t.lineBreak
    | .keep => t.emptyLines ++ t.lineBreak
  return (String.ofList (tail ++ t.text).reverse, ⟨p.line + 1, 0, p.index, joinLines rest⟩)

end MailTemplate.Yaml
