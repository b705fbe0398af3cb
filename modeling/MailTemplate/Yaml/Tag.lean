import MailTemplate.Yaml.Scalar

/-!
# Tags, anchors and directives

The short texts in front of a node or a document. A tag is written as a handle and the rest of its
name, or in full between angle brackets. Its name is made of bytes and ends at the first zero byte.
-/

namespace MailTemplate.Yaml

def isNameChar (c : Char) : Bool := c.isAlphanum || c == '_' || c == '-'

def readName? (cs : List Char) : Option (String × List Char) :=
  let name := cs.takeWhile isNameChar
  let rest := cs.dropWhile isNameChar
  if name.isEmpty then none
  else if atGap rest || rest.head?.any ['?', ':', ',', ']', '}', '%', '@', '\x60'].contains then
    some (String.ofList name, rest)
  else none

/-! ## Tags -/

/-- Characters of tags; some of them only between angle brackets and in directives. -/
def isTagChar (wide : Bool) (c : Char) : Bool :=
  isNameChar c || [';', '/', '?', ':', '@', '&', '=', '+', '$', '.', '%', '!', '~', '*', '\'', '(',
    ')'].contains c || (wide && [',', '[', ']'].contains c)

/-- How many bytes must follow a byte that starts a character. -/
def followers? (byte : Nat) : Option Nat :=
  if byte < 0x80 then some 0
  else if 0xC0 ≤ byte && byte < 0xE0 then some 1
  else if 0xE0 ≤ byte && byte < 0xF0 then some 2
  else if 0xF0 ≤ byte && byte < 0xF8 then some 3
  else none

/-- Reads characters of a tag up to one that it cannot hold. A percent sign and two hexadecimal
digits stand for one byte; the bytes of a character, of which `missing` are still to come, stand
together. -/
def readTagText (wide : Bool) (missing : Nat) : List Char → Option (Tag × List Char)
  | [] => if missing = 0 then some ([], []) else none
  | '%' :: a :: b :: cs => do
      let byte ← Number.ofDigitsIn? 16 [a, b]
      let missing ←
        if missing = 0 then followers? byte
        else if 0x80 ≤ byte && byte < 0xC0 then some (missing - 1)
        else none
      let (tag, rest) ← readTagText wide missing cs
      return (UInt8.ofNat byte :: tag, rest)
  | c :: cs =>
      if missing ≠ 0 || c == '%' then none
      else if isTagChar wide c then
        (readTagText wide 0 cs).map fun (tag, rest) => (UInt8.ofNat c.toNat :: tag, rest)
      else some ([], c :: cs)

/-- A tag as it is written; without a handle it is written in full. -/
structure WrittenTag where
  handle : Option (List Char)
  suffix : Tag
  deriving Repr, DecidableEq

/-- The tag of a lone exclamation mark. -/
def plainTag : Tag := "!".toUTF8.toList

/-- A handle such as `!`, `!!` or `!x!`, of which the first character has been read. -/
def readHandle (cs : List Char) : List Char × List Char :=
  let name := cs.takeWhile isNameChar
  match cs.dropWhile isNameChar with
  | '!' :: rest => ('!' :: name ++ ['!'], rest)
  | rest => ('!' :: name, rest)

/-- Reads a tag behind its first character. -/
def readTag? (flow : Bool) (cs : List Char) : Option (WrittenTag × List Char) := do
  let (tag, rest) ← match cs with
    | '<' :: cs =>
        match ← readTagText true 0 cs with
        | (uri, '>' :: rest) => if uri.isEmpty then none else some (⟨none, uri⟩, rest)
        | _ => none
    | cs => do
        let (handle, rest) := readHandle cs
        let (suffix, rest) ← readTagText false 0 rest
        if handle.length ≥ 2 && handle.getLast? == some '!' then
          if suffix.isEmpty then none else some (⟨some handle, suffix⟩, rest)
        else
          let suffix := (String.ofList handle.tail).toUTF8.toList ++ suffix
          if suffix.headD 0 == 0 then some (⟨none, plainTag⟩, rest)
          else some (⟨some ['!'], suffix⟩, rest)
  if atGap rest || (flow && rest.head? == some ',') then some (tag, rest) else none

/-- Tag handles with what they stand for. -/
abbrev Handles := List (List Char × Tag)

def coreTags : Tag := "tag:yaml.org,2002:".toUTF8.toList

def defaultHandles : Handles := [(['!', '!'], coreTags), (['!'], plainTag)]

def WrittenTag.resolve? (handles : Handles) (t : WrittenTag) : Option Tag :=
  let ended (bytes : Tag) := bytes.takeWhile (· != 0)
  match t.handle with
  | none => some (ended t.suffix)
  | some handle => (handles.lookup handle).map fun start => ended start ++ ended t.suffix

/-! ## Directives -/

inductive Directive where
  /-- A version that is understood. -/
  | version
  | tag (handle : List Char) (start : Tag)
  deriving Repr, DecidableEq

def readVersionNumber? (cs : List Char) : Option (Nat × List Char) :=
  let digits := cs.takeWhile Char.isDigit
  if digits.isEmpty || 9 < digits.length then none
  else some (Number.ofDigits digits, cs.dropWhile Char.isDigit)

/-- Reads the value of a directive, behind its name and the blanks that follow. -/
def readDirectiveValue? (name : List Char) (cs : List Char) : Option (Directive × List Char) := do
  if name = "YAML".toList then
    match ← readVersionNumber? cs with
    | (major, '.' :: cs) =>
        let (minor, rest) ← readVersionNumber? cs
        if major = 1 && (minor = 1 || minor = 2) then some (.version, rest) else none
    | _ => none
  else if name = "TAG".toList then
    match cs with
    | '!' :: cs =>
        let (handle, rest) := readHandle cs
        if handle.getLast? != some '!' || !rest.head?.any isSpace then none
        let (start, rest) ← readTagText true 0 (rest.dropWhile isSpace)
        if start.isEmpty || !atGap rest then none else some (.tag handle start, rest)
    | _ => none
  else none

/-- Reads a directive behind its first character, up to the next line. -/
def readDirective? (cs : List Char) : Option (Directive × List Char) := do
  let rest := cs.dropWhile isNameChar
  if !atGap rest then none
  let (directive, rest) ← readDirectiveValue? (cs.takeWhile isNameChar) (rest.dropWhile isSpace)
  return (directive, ← lineEnd? rest)

end MailTemplate.Yaml
