import MailTemplate.Token.Basic

/-!
# Syntax errors

Why a template cannot be compiled, and how each reason reads.
-/

namespace MailTemplate

/-- What the reader of statements and expressions looked for. -/
inductive Expected where
  | keyword (k : Keyword)
  | symbol (s : Symbol)
  | endOfExpression
  | statement
  | variableName
  | memberName
  | loopVariable
  | assignmentOperator
  | expression
  deriving Repr, DecidableEq

def Expected.describe : Expected → String
  | keyword k => (Token.keyword k).describe
  | symbol s => (Token.symbol s).describe
  | endOfExpression => "end of expression"
  | statement => "a statement"
  | variableName => "a variable name"
  | memberName => "a member name"
  | loopVariable => "a loop variable"
  | assignmentOperator => "an assignment operator"
  | expression => "an expression"

inductive SyntaxCause where
  | unterminatedBlock (openedAt : Nat)
  | unterminatedExpression
  | emptyExpression
  | unterminatedString
  | invalidNumber (text : String)
  | unexpectedChar (c : Char)
  | unexpectedToken (expected : Expected) (found : Token)
  | unexpectedEnd (expected : Expected)
  | unexpectedText (expected : Expected)
  | trailingContent (text : String)
  | textInCodeBlock (text : String) (cause : SyntaxCause)
  deriving Repr

namespace SyntaxCause

def message : SyntaxCause → String
  | unterminatedBlock openedAt =>
      "code block opened at line " ++ toString openedAt ++ " is never closed"
  | unterminatedExpression => "inline expression `@\x7b` has no closing `\x7d`"
  | emptyExpression => "inline expression `@\x7b\x7d` is empty"
  | unterminatedString => "unterminated string literal"
  | invalidNumber text => "invalid number literal `" ++ text ++ "`"
  | unexpectedChar c => "unexpected character `" ++ String.singleton c ++ "`"
  | unexpectedToken expected found =>
      "expected " ++ expected.describe ++ ", found " ++ found.describe
  | unexpectedEnd expected => "expected " ++ expected.describe ++ ", found end of block"
  | unexpectedText expected => "template text where " ++ expected.describe ++ " was expected"
  | trailingContent text =>
      "unexpected content after the closing `\x7d` of a code block: `" ++ text ++ "`"
  | textInCodeBlock text cause =>
      "`" ++ text ++ "` is not a statement (" ++ cause.message
        ++ "); mark template text inside a code block with `@:`"

end SyntaxCause

structure SyntaxError where
  line : Nat
  cause : SyntaxCause
  deriving Repr

def SyntaxError.message (e : SyntaxError) : String :=
  "parse error at line " ++ toString e.line ++ ": " ++ e.cause.message

end MailTemplate
