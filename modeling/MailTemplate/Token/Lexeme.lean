import MailTemplate.Number.Digits
import MailTemplate.SyntaxError
import MailTemplate.Text.Blank

/-!
# Lexemes

Reading tokens off a text. A lexeme keeps the blanks before its token and the token's spelling, so
that a text is its lexemes one after another (`next?_eq`), up to a `//` comment that ends it.

Words and numbers are made of ASCII letters, digits and underscores; blanks are those of Unicode.
-/

namespace MailTemplate

open Text

/-! ## Characters -/

/-- A letter or an underscore: what an identifier starts with. -/
def isWordStart (c : Char) : Bool := c.isAlpha || c == '_'

/-- A letter, a digit or an underscore: what an identifier goes on with. -/
def isWordChar (c : Char) : Bool := c.isAlphanum || c == '_'

/-! ## Literals -/

/-- The character that a backslash and `c` stand for. -/
def unescape : Char → Char
  | 'n' => '\n'
  | 't' => '\t'
  | 'r' => '\r'
  | c => c

/-- Reads up to the closing `quote`: the text meant, its spelling with the closing quote, and the
rest. -/
def readString (quote : Char) : List Char → Option (List Char × List Char × List Char)
  | [] => none
  | '\\' :: c :: cs =>
      (readString quote cs).map fun r => (unescape c :: r.1, '\\' :: c :: r.2.1, r.2.2)
  | c :: cs =>
      if c = quote then some ([], [c], cs)
      else (readString quote cs).map fun r => (c :: r.1, c :: r.2.1, r.2.2)

/-- A dot with digits behind it, if the text starts so: the digits and the rest. -/
def readFraction : List Char → List Char × List Char
  | '.' :: d :: cs =>
      if d.isDigit then ((d :: cs).takeWhile Char.isDigit, (d :: cs).dropWhile Char.isDigit)
      else ([], '.' :: d :: cs)
  | cs => ([], cs)

/-- The spelling of a number with the given digits before and after the point. -/
def numberSpelling (whole fraction : List Char) : List Char :=
  if fraction.isEmpty then whole else whole ++ '.' :: fraction

def numberValue (whole fraction : List Char) : Float :=
  Number.ofDecimal false (Number.ofDigits (whole ++ fraction)) (-Int.ofNat fraction.length)

/-- Reads a number: digits, and a fraction when a digit follows the dot. A letter directly behind it
spoils it. -/
def readNumber (cs : List Char) : Except SyntaxCause (Token × List Char × List Char) :=
  let whole := cs.takeWhile Char.isDigit
  let (fraction, rest) := readFraction (cs.dropWhile Char.isDigit)
  if rest.head?.any isWordStart then
    .error (.invalidNumber (String.ofList (cs.takeWhile fun c => isWordChar c || c == '.')))
  else .ok (.number (numberValue whole fraction), numberSpelling whole fraction, rest)

def wordToken (w : List Char) : Token :=
  match Keyword.ofWord? w with
  | some k => .keyword k
  | none => .ident (String.ofList w)

/-- Reads one token off a text that starts with `c`: the token, its spelling and the rest. -/
def readToken (c : Char) (cs : List Char) : Except SyntaxCause (Token × List Char × List Char) :=
  if c = '"' || c = '\'' then
    match readString c cs with
    | some (text, raw, rest) => .ok (.string (String.ofList text), c :: raw, rest)
    | none => .error .unterminatedString
  else if c.isDigit then readNumber (c :: cs)
  else if isWordStart c then
    let w := (c :: cs).takeWhile isWordChar
    .ok (wordToken w, w, (c :: cs).dropWhile isWordChar)
  else match Symbol.leading? (c :: cs) with
    | some s => .ok (.symbol s, s.spelling, (c :: cs).drop s.spelling.length)
    | none => .error (.unexpectedChar c)

/-! ## Lexemes -/

/-- A token, its spelling, and the blanks before it. -/
structure Lexeme where
  gap : List Char
  spelling : List Char
  token : Token

/-- Whether a text starts with a comment, which goes on to its end. -/
def startsComment : List Char → Bool
  | '/' :: '/' :: _ => true
  | _ => false

/-- The first lexeme of a text and the rest; none when only blanks and a comment are left. -/
def Lexeme.next? (cs : List Char) : Except SyntaxCause (Option (Lexeme × List Char)) :=
  match trimStart cs with
  | [] => .ok none
  | c :: r =>
      if startsComment (c :: r) then .ok none
      else match readToken c r with
        | .ok (token, spelling, rest) => .ok (some (⟨leadingBlanks cs, spelling, token⟩, rest))
        | .error e => .error e

theorem readString_eq {quote : Char} {cs text raw rest : List Char}
    (h : readString quote cs = some (text, raw, rest)) : cs = raw ++ rest := by
  fun_induction readString quote cs generalizing text raw rest with
  | case1 => simp at h
  | case2 c cs ih =>
      obtain ⟨r, hr, he⟩ := Option.map_eq_some_iff.1 h
      cases he
      simp [ih hr]
  | case3 cs hq => simp at h; simp [← h.2.1, ← h.2.2]
  | case4 c cs hc hne ih =>
      obtain ⟨r, hr, he⟩ := Option.map_eq_some_iff.1 h
      cases he
      simp [ih hr]

theorem readFraction_eq (cs : List Char) :
    cs = numberSpelling [] (readFraction cs).1 ++ (readFraction cs).2 := by
  unfold readFraction
  split
  · split
    · rename_i d cs hd
      simp [numberSpelling, hd, List.takeWhile_append_dropWhile]
    · simp [numberSpelling]
  · simp [numberSpelling]

theorem numberSpelling_eq (whole fraction : List Char) :
    numberSpelling whole fraction = whole ++ numberSpelling [] fraction := by
  unfold numberSpelling; split <;> simp

theorem readNumber_eq {cs spelling rest : List Char} {t : Token}
    (h : readNumber cs = .ok (t, spelling, rest)) :
    cs = spelling ++ rest ∧ cs.takeWhile Char.isDigit <+: spelling := by
  simp only [readNumber] at h
  split at h
  · simp at h
  · simp only [Except.ok.injEq, Prod.mk.injEq] at h
    obtain ⟨_, rfl, rfl⟩ := h
    rw [numberSpelling_eq, List.append_assoc, ← readFraction_eq, List.takeWhile_append_dropWhile]
    exact ⟨rfl, _, rfl⟩

theorem Symbol.spelling_ne_nil (s : Symbol) : s.spelling ≠ [] := by cases s <;> simp [spelling]

theorem Symbol.leading?_eq {cs : List Char} {s : Symbol} (h : leading? cs = some s) :
    cs = s.spelling ++ cs.drop s.spelling.length := by
  have hp := List.find?_some h
  obtain ⟨t, rfl⟩ := List.isPrefixOf_iff_prefix.1 hp
  simp

theorem readToken_eq {c : Char} {cs spelling rest : List Char} {t : Token}
    (h : readToken c cs = .ok (t, spelling, rest)) :
    c :: cs = spelling ++ rest ∧ spelling ≠ [] := by
  unfold readToken at h
  split at h
  · split at h
    · rename_i hs
      simp only [Except.ok.injEq, Prod.mk.injEq] at h
      obtain ⟨_, rfl, rfl⟩ := h
      simp [readString_eq hs]
    · simp at h
  · split at h
    · rename_i hd
      obtain ⟨he, hp⟩ := readNumber_eq h
      refine ⟨he, fun hn => ?_⟩
      simp [hn, hd] at hp
    · split at h
      · rename_i hw
        simp only [Except.ok.injEq, Prod.mk.injEq] at h
        obtain ⟨_, rfl, rfl⟩ := h
        have hc : isWordChar c := by
          simp only [isWordStart, isWordChar, Char.isAlphanum, Bool.or_eq_true] at hw ⊢
          rcases hw with hw | hw <;> simp [hw]
        refine ⟨List.takeWhile_append_dropWhile.symm, ?_⟩
        simp [hc]
      · split at h
        · rename_i hl
          simp only [Except.ok.injEq, Prod.mk.injEq] at h
          obtain ⟨_, rfl, rfl⟩ := h
          exact ⟨Symbol.leading?_eq hl, Symbol.spelling_ne_nil _⟩
        · simp at h

namespace Lexeme

theorem next?_eq {cs rest : List Char} {l : Lexeme} (h : next? cs = .ok (some (l, rest))) :
    cs = l.gap ++ l.spelling ++ rest ∧ l.spelling ≠ [] := by
  unfold next? at h
  split at h
  · simp at h
  · rename_i c r hr
    split at h
    · simp at h
    · split at h
      · rename_i ht
        simp only [Except.ok.injEq, Option.some.injEq, Prod.mk.injEq] at h
        obtain ⟨rfl, rfl⟩ := h
        obtain ⟨he, hne⟩ := readToken_eq ht
        refine ⟨?_, hne⟩
        rw [List.append_assoc, ← he, ← hr, leadingBlanks_append_trimStart]
      · simp at h

theorem length_of_next? {cs rest : List Char} {l : Lexeme} (h : next? cs = .ok (some (l, rest))) :
    rest.length < cs.length := by
  obtain ⟨rfl, hne⟩ := next?_eq h
  have := List.length_pos_iff.2 hne
  simp only [List.length_append]
  omega

def all (cs : List Char) : Except SyntaxCause (List Lexeme) :=
  match h : next? cs with
  | .error e => .error e
  | .ok none => .ok []
  | .ok (some (l, rest)) =>
      have := length_of_next? h
      match all rest with
      | .error e => .error e
      | .ok ls => .ok (l :: ls)
termination_by cs.length

/-- How many bytes a text has in UTF-8. -/
def byteLength (cs : List Char) : Nat := cs.foldr (fun c n => c.utf8Size + n) 0

/-- Where the tokens of lexemes start and end, in bytes, if the first one's blanks start at
`offset`. -/
def spans (offset : Nat) : List Lexeme → List (Token × Nat × Nat)
  | [] => []
  | l :: ls =>
      let first := offset + byteLength l.gap
      let last := first + byteLength l.spelling
      (l.token, first, last) :: spans last ls

end Lexeme

def tokens (cs : List Char) : Except SyntaxCause (List Token) :=
  (Lexeme.all cs).map (·.map Lexeme.token)

end MailTemplate
