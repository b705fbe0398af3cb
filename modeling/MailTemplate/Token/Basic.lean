import MailTemplate.Number.Text
import MailTemplate.Text.Quoted

/-!
# Tokens

The words, symbols and literals of the statement and expression language, their spellings, and the
classes of tokens that decide how a line of a code block is read.
-/

namespace MailTemplate

inductive Keyword where
  | var
  | ifThen
  | orElse
  | forLoop
  | forEach
  | whileLoop
  | inside
  | trueLit
  | falseLit
  | nullLit
  deriving Repr, DecidableEq

namespace Keyword

def spelling : Keyword → List Char
  | var => ['v', 'a', 'r']
  | ifThen => ['i', 'f']
  | orElse => ['e', 'l', 's', 'e']
  | forLoop => ['f', 'o', 'r']
  | forEach => ['f', 'o', 'r', 'e', 'a', 'c', 'h']
  | whileLoop => ['w', 'h', 'i', 'l', 'e']
  | inside => ['i', 'n']
  | trueLit => ['t', 'r', 'u', 'e']
  | falseLit => ['f', 'a', 'l', 's', 'e']
  | nullLit => ['n', 'u', 'l', 'l']

def all : List Keyword :=
  [var, ifThen, orElse, forLoop, forEach, whileLoop, inside, trueLit, falseLit, nullLit]

def ofWord? (w : List Char) : Option Keyword := all.find? (·.spelling == w)

end Keyword

inductive Symbol where
  | andAlso
  | orElse
  | equal
  | notEqual
  | atMost
  | atLeast
  | addTo
  | subtractFrom
  | multiplyBy
  | divideBy
  | increment
  | decrement
  | openParen
  | closeParen
  | openBrace
  | closeBrace
  | openBracket
  | closeBracket
  | dot
  | semicolon
  | question
  | colon
  | assign
  | plus
  | minus
  | star
  | slash
  | percent
  | bang
  | less
  | greater
  deriving Repr, DecidableEq

namespace Symbol

def spelling : Symbol → List Char
  | andAlso => ['&', '&']
  | orElse => ['|', '|']
  | equal => ['=', '=']
  | notEqual => ['!', '=']
  | atMost => ['<', '=']
  | atLeast => ['>', '=']
  | addTo => ['+', '=']
  | subtractFrom => ['-', '=']
  | multiplyBy => ['*', '=']
  | divideBy => ['/', '=']
  | increment => ['+', '+']
  | decrement => ['-', '-']
  | openParen => ['(']
  | closeParen => [')']
  | openBrace => ['{']
  | closeBrace => ['}']
  | openBracket => ['[']
  | closeBracket => [']']
  | dot => ['.']
  | semicolon => [';']
  | question => ['?']
  | colon => [':']
  | assign => ['=']
  | plus => ['+']
  | minus => ['-']
  | star => ['*']
  | slash => ['/']
  | percent => ['%']
  | bang => ['!']
  | less => ['<']
  | greater => ['>']

/-- All symbols, the longer ones first. -/
def all : List Symbol :=
  [andAlso, orElse, equal, notEqual, atMost, atLeast, addTo, subtractFrom, multiplyBy, divideBy,
    increment, decrement, openParen, closeParen, openBrace, closeBrace, openBracket, closeBracket,
    dot, semicolon, question, colon, assign, plus, minus, star, slash, percent, bang, less, greater]

/-- The longest symbol that a text starts with. -/
def leading? (cs : List Char) : Option Symbol := all.find? (·.spelling.isPrefixOf cs)

end Symbol

inductive Token where
  | keyword (k : Keyword)
  | symbol (s : Symbol)
  | ident (name : String)
  | number (value : Float)
  | string (text : String)
  deriving Repr

namespace Token

/-- How diagnostics name a token. -/
def describe : Token → String
  | keyword k => "`" ++ String.ofList k.spelling ++ "`"
  | symbol s => "`" ++ String.ofList s.spelling ++ "`"
  | ident name => "identifier `" ++ name ++ "`"
  | number value => "number `" ++ Number.plain value ++ "`"
  | string text => "string " ++ Text.quoted text

/-- Tokens that make a line a statement when it starts with one. -/
def startsStatement : Token → Bool
  | keyword .var | keyword .ifThen | keyword .orElse | keyword .forLoop | keyword .forEach
  | keyword .whileLoop | symbol .openBrace | symbol .closeBrace | symbol .semicolon => true
  | _ => false

/-- Tokens that cannot end a statement line, so that the next line continues it. -/
def expectsMore : Token → Bool
  | keyword .orElse | keyword .trueLit | keyword .falseLit | keyword .nullLit
  | symbol .closeParen | symbol .closeBrace | symbol .openBrace | symbol .closeBracket
  | symbol .semicolon | symbol .increment | symbol .decrement
  | ident _ | number _ | string _ => false
  | _ => true

/-- Tokens that can only continue an expression begun on an earlier line. -/
def continuesExpression : Token → Bool
  | symbol .plus | symbol .minus | symbol .star | symbol .slash | symbol .percent
  | symbol .equal | symbol .notEqual | symbol .less | symbol .greater | symbol .atMost
  | symbol .atLeast | symbol .andAlso | symbol .orElse | symbol .question | symbol .colon
  | symbol .dot | symbol .closeParen | symbol .closeBracket => true
  | _ => false

/-- Tokens that make a statement of the identifier before them. -/
def isAssignment : Token → Bool
  | symbol .assign | symbol .addTo | symbol .subtractFrom | symbol .multiplyBy
  | symbol .divideBy | symbol .increment | symbol .decrement => true
  | _ => false

/-- Tokens after which a statement is complete or has its body to come. -/
def endsStatement : Token → Bool
  | keyword .orElse | symbol .semicolon | symbol .openBrace | symbol .closeBrace
  | symbol .closeParen => true
  | _ => false

end Token

end MailTemplate
