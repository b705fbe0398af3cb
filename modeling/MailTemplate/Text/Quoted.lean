import MailTemplate.Text.Shapeless

/-!
# Quoted text

A text between quotation marks, as diagnostics show it. A quotation mark and a backslash are written
after a backslash, line breaks, tabs and NUL by their letter, and every other character without a
shape of its own by its number.
-/

namespace MailTemplate.Text

def quotedChar (c : Char) : List Char :=
  match c with
  | '"' => ['\\', '"']
  | '\\' => ['\\', '\\']
  | '\n' => ['\\', 'n']
  | '\t' => ['\\', 't']
  | '\r' => ['\\', 'r']
  | '\x00' => ['\\', '0']
  | c =>
      if isShapeless c then ['\\', 'u', '{'] ++ Nat.toDigits 16 c.toNat ++ ['}']
      else [c]

def quoted (s : String) : String :=
  String.ofList ('"' :: s.toList.flatMap quotedChar ++ ['"'])

end MailTemplate.Text
