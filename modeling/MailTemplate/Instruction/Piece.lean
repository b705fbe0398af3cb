import MailTemplate.Instruction.Basic
import MailTemplate.Token.Lexeme

/-!
# Pieces of a code block

A code block is a sequence of tokens with their lines, and of text lines that have been turned into
instructions. This module reads single pieces; what is left is always shorter.
-/

namespace MailTemplate

inductive Piece where
  | token (line : Nat) (t : Token)
  | text (line : Nat) (output : List Instruction)

namespace Piece

def line : Piece → Nat
  | token l _ | text l _ => l

def ofCode (line : Nat) (cs : List Char) : Except SyntaxError (List Piece) :=
  match tokens cs with
  | .ok ts => .ok (ts.map (token line))
  | .error cause => .error ⟨line, cause⟩

end Piece

abbrev Fewer (ps : List Piece) := { rest : List Piece // rest.length < ps.length }

/-- Something read off the front of `ps`, and the fewer pieces that are left. -/
abbrev Parsed (α : Type) (ps : List Piece) := { r : α × List Piece // r.2.length < ps.length }

/-- The error at the front of `ps`, where something else was expected. Behind the last piece it is
on the line `last`. -/
def unexpected (last : Nat) (expected : Expected) : List Piece → SyntaxError
  | [] => ⟨last, .unexpectedEnd expected⟩
  | .token line t :: _ => ⟨line, .unexpectedToken expected t⟩
  | .text line _ :: _ => ⟨line, .unexpectedText expected⟩

def frontLine (last : Nat) : List Piece → Nat
  | [] => last
  | p :: _ => p.line

def takeSymbol? (s : Symbol) : (ps : List Piece) → Option (Fewer ps)
  | .token _ (.symbol t) :: rest => if t = s then some ⟨rest, Nat.lt_succ_self _⟩ else none
  | _ => none

def takeKeyword? (k : Keyword) : (ps : List Piece) → Option (Fewer ps)
  | .token _ (.keyword j) :: rest => if j = k then some ⟨rest, Nat.lt_succ_self _⟩ else none
  | _ => none

def expectSymbol (last : Nat) (s : Symbol) (ps : List Piece) : Except SyntaxError (Fewer ps) :=
  match takeSymbol? s ps with
  | some rest => .ok rest
  | none => .error (unexpected last (.symbol s) ps)

def expectKeyword (last : Nat) (k : Keyword) (ps : List Piece) : Except SyntaxError (Fewer ps) :=
  match takeKeyword? k ps with
  | some rest => .ok rest
  | none => .error (unexpected last (.keyword k) ps)

def expectIdent (last : Nat) (what : Expected) :
    (ps : List Piece) → Except SyntaxError (Parsed String ps)
  | .token _ (.ident name) :: rest => .ok ⟨(name, rest), Nat.lt_succ_self _⟩
  | ps => .error (unexpected last what ps)

end MailTemplate
