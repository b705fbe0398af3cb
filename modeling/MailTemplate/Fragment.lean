import MailTemplate.Token.Lexeme

/-!
# Fragments of a text line

A text line is literal text, references `@a.b.c` and inline expressions between `@` and a pair of
braces. `@@` stands for a literal `@`, and an `@` that starts nothing is literal too.
-/

namespace MailTemplate

open Text

inductive Fragment where
  | literal (text : String)
  | reference (path : List String)
  /-- The text between the braces, without the blanks around it. -/
  | expression (text : String)
  deriving Repr, DecidableEq

namespace Fragment

/-- Reads up to the brace that closes `depth` open braces and the one before the text: what stands
before it and what stands behind it. Braces between quotation marks do not count; there a backslash
takes the next character with it. -/
def closing? : Nat → Option Char → List Char → Option (List Char × List Char)
  | _, _, [] => none
  | depth, some q, '\\' :: c :: cs =>
      (closing? depth (some q) cs).map fun r => ('\\' :: c :: r.1, r.2)
  | depth, some q, c :: cs =>
      (closing? depth (if c = q then none else some q) cs).map fun r => (c :: r.1, r.2)
  | depth, none, c :: cs =>
      if c = '}' then
        match depth with
        | 0 => some ([], cs)
        | depth + 1 => (closing? depth none cs).map fun r => (c :: r.1, r.2)
      else
        let depth := if c = '{' then depth + 1 else depth
        let quote := if c = '"' || c = '\'' then some c else none
        (closing? depth quote cs).map fun r => (c :: r.1, r.2)

/-- Identifiers with dots between them at the front of a text, and the rest. A dot belongs to them
only when an identifier follows it. -/
def readPath (cs : List Char) : List String × List Char :=
  let name := String.ofList (cs.takeWhile isWordChar)
  match h : cs.dropWhile isWordChar with
  | '.' :: c :: rest =>
      if isWordStart c then
        have : (c :: rest).length < cs.length := by
          have := (List.dropWhile_sublist (l := cs) isWordChar).length_le
          simp only [h, List.length_cons] at this ⊢
          omega
        let (names, rest) := readPath (c :: rest)
        (name :: names, rest)
      else ([name], '.' :: c :: rest)
  | rest => ([name], rest)
termination_by cs.length

/-- The literal with the given characters in reverse order; none when there are none. -/
def flush (reversed : List Char) : List Fragment :=
  if reversed.isEmpty then [] else [literal (String.ofList reversed.reverse)]

theorem closing?_eq {depth : Nat} {quote : Option Char} {cs body rest : List Char}
    (h : closing? depth quote cs = some (body, rest)) : cs = body ++ '}' :: rest := by
  fun_induction closing? depth quote cs generalizing body rest with
  | case1 => simp at h
  | case2 _ _ _ _ ih | case3 _ _ _ _ _ ih | case5 _ _ ih =>
      obtain ⟨r, hr, he⟩ := Option.map_eq_some_iff.1 h
      cases he
      simp [ih hr]
  | case4 => simp_all
  | case6 =>
      rename_i ih
      obtain ⟨r, hr, he⟩ := Option.map_eq_some_iff.1 h
      cases he
      simp [ih hr]

theorem length_readPath_le (cs : List Char) :
    (readPath cs).2.length ≤ (cs.dropWhile isWordChar).length := by
  fun_induction readPath cs with
  | case1 cs _ c rest h hc _ names rest' hr ih =>
      rw [h]
      simp only [List.length_cons]
      have := (List.dropWhile_sublist (l := c :: rest) isWordChar).length_le
      simp only [hr, List.length_cons] at ih this ⊢
      omega
  | case2 cs _ c rest h hc => simp [h]
  | case3 cs => simp

/-- The fragments of a line, of which the given literal characters have been read. -/
def readFrom (reversed : List Char) : List Char → Except SyntaxCause (List Fragment)
  | [] => .ok (flush reversed)
  | '@' :: '@' :: cs => readFrom ('@' :: reversed) cs
  | '@' :: '{' :: cs =>
      match h : closing? 0 none cs with
      | none => .error .unterminatedExpression
      | some (body, rest) =>
          have : rest.length ≤ cs.length := by simp [closing?_eq h]; omega
          let text := trim body
          if text.isEmpty then .error .emptyExpression
          else match readFrom [] rest with
            | .error e => .error e
            | .ok fs => .ok (flush reversed ++ expression (String.ofList text) :: fs)
  | '@' :: c :: cs =>
      if isWordStart c then
        have : (readPath (c :: cs)).2.length ≤ cs.length + 1 :=
          Nat.le_trans (length_readPath_le _) (List.dropWhile_sublist _).length_le
        match readFrom [] (readPath (c :: cs)).2 with
        | .error e => .error e
        | .ok fs => .ok (flush reversed ++ reference (readPath (c :: cs)).1 :: fs)
      else readFrom ('@' :: reversed) (c :: cs)
  | c :: cs => readFrom (c :: reversed) cs
termination_by cs => cs.length

def ofLine (cs : List Char) : Except SyntaxCause (List Fragment) := readFrom [] cs

end Fragment

end MailTemplate
