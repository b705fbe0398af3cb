import MailTemplate.Yaml.Tag

/-!
# The tokens of a YAML text

A text as a list of tokens, in which the layout has become tokens of its own: a mapping in block
style is opened in front of the first key that is indented further than what is around it, and
closed in front of the first token that is indented less.

The start of a line may turn out to be a key, once a colon follows it. Until then its tokens are
held back, so that the token that announces a key can go in front of them. A key with its colon
takes one line, and at most 1024 characters of it.

Only what a document without nested collections needs has tokens; other texts are refused.
-/

namespace MailTemplate.Yaml

inductive Token where
  | directive (d : Directive)
  | documentStart
  | documentEnd
  | blockOpen
  | blockClose
  | flowOpen
  | flowClose
  | separator
  | key
  | value
  | alias (name : String)
  | anchor (name : String)
  | tag (t : WrittenTag)
  | scalar (style : Style) (text : String)
  deriving Repr, DecidableEq

/-- Tokens that are a key if a colon follows them. -/
structure Held where
  start : Cursor
  /-- They stand where only a key can, so that the colon must follow. -/
  required : Bool
  /-- In reverse order. -/
  tokens : List Token

/-- The most characters between the start of a key and its colon. -/
def maxKeyLength : Nat := 1024

/-- Whether a colon at `p` comes too late. -/
def Held.isStale (h : Held) (p : Cursor) : Bool :=
  h.start.line < p.line || h.start.index + maxKeyLength < p.index

/-- What has been read of a text. -/
structure Layout where
  /-- What comes next. -/
  cursor : Cursor
  /-- The tokens so far, in reverse order. -/
  tokens : List Token
  held : Option Held
  /-- The column of the mapping in block style that is open. -/
  indent : Option Nat
  /-- A mapping in flow style is open. -/
  flow : Bool
  /-- A key without a question mark may start here. -/
  keyAllowed : Bool

namespace Layout

def start (cs : List Char) : Layout := ⟨.start cs, [], none, none, false, true⟩

/-! ## Steps -/

/-- The layout with one more token, and the cursor behind it. -/
def push (l : Layout) (t : Token) (p : Cursor) : Layout :=
  match l.held with
  | some h => { l with held := some { h with tokens := t :: h.tokens }, cursor := p }
  | none => { l with tokens := t :: l.tokens, cursor := p }

/-- The layout without tokens held back: they are no key. -/
def release? (l : Layout) : Option Layout :=
  match l.held with
  | some h =>
      if h.required then none else some { l with held := none, tokens := h.tokens ++ l.tokens }
  | none => some l

/-- The layout that holds the next tokens back if a key may start here. Behind them no key may
start on the same line. -/
def hold? (l : Layout) : Option Layout := do
  if !l.keyAllowed then return l
  let l ← l.release?
  let h : Held := ⟨l.cursor, !l.flow && l.indent == some l.cursor.column, []⟩
  return { l with held := some h, keyAllowed := false }

/-- The tokens that open a mapping in block style at a column, in reverse order, if they are
needed; fails if it would be nested. -/
def opening? (l : Layout) (column : Nat) : Option (List Token) :=
  if l.flow then some []
  else match l.indent with
    | none => some [.blockOpen]
    | some n => if n < column then none else some []

/-- The layout with a mapping in block style open at a column. -/
def indented (l : Layout) (column : Nat) : Layout :=
  if l.flow then l else { l with indent := some (l.indent.getD column) }

def closed (l : Layout) : Layout :=
  match l.indent with
  | some _ => { l with tokens := .blockClose :: l.tokens, indent := none }
  | none => l

/-- The layout at the next token. -/
def settle? (l : Layout) : Option Layout := do
  let p := l.cursor.skip l.flow (l.flow || !l.keyAllowed)
  let l := { l with
    keyAllowed := l.keyAllowed || (!l.flow && p.line != l.cursor.line)
    cursor := p }
  let l ← if l.held.any (·.isStale p) then l.release? else some l
  return if !l.flow && l.indent.any (p.column < ·) then l.closed else l

/-! ## Tokens -/

/-- Reads a colon in front of a value. -/
def readValue? (l : Layout) (behind : Cursor) : Option Layout :=
  match l.held with
  | some h => do
      let opening ← l.opening? h.start.column
      let l := l.indented h.start.column
      return { l with
        held := none
        tokens := .value :: h.tokens ++ .key :: opening ++ l.tokens
        keyAllowed := false
        cursor := behind }
  | none => do
      if !l.flow && !l.keyAllowed then none
      let opening ← l.opening? l.cursor.column
      let l := l.indented l.cursor.column
      return { l with
        tokens := .value :: opening ++ l.tokens
        keyAllowed := !l.flow
        cursor := behind }

/-- Reads a question mark in front of a key. -/
def readKey? (l : Layout) (behind : Cursor) : Option Layout := do
  if !l.flow && !l.keyAllowed then none
  let l ← l.release?
  let opening ← l.opening? l.cursor.column
  let l := l.indented l.cursor.column
  return { l with tokens := .key :: opening ++ l.tokens, keyAllowed := !l.flow, cursor := behind }

/-- Reads a token that stands between documents, up to `p`. -/
def readOutside? (l : Layout) (t : Token) (p : Cursor) : Option Layout := do
  let l ← l.release?
  return { l.closed.push t p with keyAllowed := false }

/-- Reads an indicator of flow style; behind it a key may start if `keys` says so. -/
def readFlow? (l : Layout) (t : Token) (flow keys : Bool) (p : Cursor) : Option Layout := do
  let l ← l.release?
  return { l.push t p with flow, keyAllowed := keys }

def readScalar? (l : Layout) (c : Char) (cs : List Char) : Option Layout :=
  let p := l.cursor.next c cs
  let floor := match l.indent with
    | some n => n + 1
    | none => 0
  if !l.flow && (c == '|' || c == '>') then do
    let l ← l.release?
    let (text, q) ← readBlock (c == '|') floor p
    let style : Style := if c == '|' then .literal else .folded
    return { l.push (.scalar style text) q with keyAllowed := true }
  else do
    let l ← l.hold?
    if c == '\'' || c == '"' then
      let (text, q) ← if c == '"' then readDouble [] Gap.none p cs else readSingle [] Gap.none p cs
      return l.push (.scalar .quoted (String.ofList text.reverse)) q
    else if startsPlain l.flow (c :: cs) then
      let (text, crossed, q) ← readPlain l.flow floor [] Gap.none l.cursor (c :: cs)
      return { l.push (.scalar .plain (String.ofList text.reverse)) q with keyAllowed := crossed }
    else none

def readToken? (l : Layout) (c : Char) (cs : List Char) : Option Layout := do
  let p := l.cursor
  let behind := p.next c cs
  let upTo (rest : List Char) : Cursor := p.advance (p.rest.length - rest.length)
  if p.column == 0 && c == '%' then
    let (d, rest) ← readDirective? cs
    l.readOutside? (.directive d) ⟨p.line + 1, 0, p.index, rest⟩
  else if p.atMarker '-' then l.readOutside? .documentStart (p.advance 3)
  else if p.atMarker '.' then l.readOutside? .documentEnd (p.advance 3)
  else if c == '{' then
    if l.flow || l.indent.isSome then none else l.readFlow? .flowOpen true true behind
  else if c == '}' then if l.flow then l.readFlow? .flowClose false false behind else none
  else if c == ',' then if l.flow then l.readFlow? .separator true true behind else none
  else if c == '?' && (l.flow || atGap cs) then l.readKey? behind
  else if c == ':' && (l.flow || atGap cs) then l.readValue? behind
  else if c == '*' then
    let (name, rest) ← readName? cs
    return (← l.hold?).push (.alias name) (upTo rest)
  else if c == '&' then
    let (name, rest) ← readName? cs
    return (← l.hold?).push (.anchor name) (upTo rest)
  else if c == '!' then
    let (tag, rest) ← readTag? l.flow cs
    return (← l.hold?).push (.tag tag) (upTo rest)
  else l.readScalar? c cs

/-- Reads the tokens up to the end, of which there are at most `fuel`. -/
def readAll? : Nat → Layout → Option (List Token)
  | 0, _ => none
  | fuel + 1, l => do
      let l ← l.settle?
      match l.cursor.rest with
      | [] => return (← l.release?).closed.tokens.reverse
      | c :: cs => readAll? fuel (← l.readToken? c cs)

end Layout

def tokens? (s : String) : Option (List Token) :=
  let cs := s.toList
  if cs.all isAllowed then
    let cs := normalBreaks cs
    (Layout.start cs).readAll? (cs.length + 1)
  else none

end MailTemplate.Yaml
