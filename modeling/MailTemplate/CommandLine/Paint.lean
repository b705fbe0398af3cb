import MailTemplate.Style

/-!
# Styled text

Styles of text on a terminal. A style is switched on in front of a text and off behind it.
-/

namespace MailTemplate.CommandLine

inductive Paint where
  | error
  | warning
  | success
  | dim
  /-- A title in a help page. -/
  | heading
  /-- What can be typed as it stands. -/
  | literal
  deriving Repr, DecidableEq

def Paint.code : Paint → List Char
  | error => ['\x1b', '[', '1', ';', '3', '1', 'm']
  | warning => ['\x1b', '[', '1', ';', '3', '3', 'm']
  | success => ['\x1b', '[', '3', '2', 'm']
  | dim => ['\x1b', '[', '2', 'm']
  | heading => ['\x1b', '[', '1', 'm', '\x1b', '[', '4', 'm']
  | literal => ['\x1b', '[', '1', 'm']

/-- The characters that switch all styles off. -/
def resetCode : List Char := ['\x1b', '[', '0', 'm']

/-- The text with the style switched on again wherever the text switches all styles off. -/
def keepPaint (p : Paint) (cs : List Char) : List Char :=
  (resetCode ++ p.code).intercalate (Style.pieces '\x1b' ['[', '0', 'm'] cs)

def paint (colour : Bool) (p : Paint) (s : String) : String :=
  if colour then String.ofList (p.code ++ keepPaint p s.toList ++ resetCode) else s

end MailTemplate.CommandLine
