import MailTemplate.Yaml.Scalar
import Mathlib

/-!
# Scalars on one line

Scalars that are written on one line, plain or between double quotation marks, are read back
(`PlainForm.reads_key`, `PlainForm.reads_value`, `QuotedForm.reads`).
-/

namespace MailTemplate.Yaml

variable {c : Char} {cs rest text more s : List Char} {p : Cursor} {floor : Nat}

/-- The cursor behind `n` characters of its line. -/
def Cursor.behind (p : Cursor) (n : Nat) (rest : List Char) : Cursor := ⟨p.line, p.column + n, p.index + n, rest⟩

theorem Cursor.next_eq_behind (h : isBreak c = false) : p.next c rest = p.behind 1 rest := by
  simp [next, behind, h]

theorem Cursor.behind_behind (p : Cursor) (m n : Nat) (s t : List Char) :
    (p.behind m s).behind n t = p.behind (m + n) t := by
  simp [behind, Nat.add_assoc]

/-! ## Plain scalars -/

/-- With these a scalar is no plain one, or else a directive or the mark of a document may begin. -/
def indicators : List Char :=
  ['-', '?', ':', ',', '[', ']', '{', '}', '#', '&', '*', '!', '|', '>', '\'', '"', '%', '@', '\x60', '.', '\ufeff']

/-- A plain scalar without blanks and colons. -/
structure PlainForm (cs : List Char) : Prop where
  ne_nil : cs ≠ []
  head : ∀ c ∈ cs.head?, c ∉ indicators
  chars : ∀ c ∈ cs, isSpace c = false ∧ isBreak c = false ∧ c ≠ ':'

/-- A token comes next, or nothing; neither a blank nor a break, and no comment. -/
def AtToken (rest : List Char) : Prop :=
  ∀ c ∈ rest.head?, isSpace c = false ∧ isBreak c = false ∧ c ≠ '#' ∧ c ≠ '\ufeff'

theorem readPlain_chars (hcs : ∀ c ∈ cs, isSpace c = false ∧ isBreak c = false ∧ c ≠ ':') (hp : p.rest = cs ++ rest) :
    readPlain false floor text Gap.none p (cs ++ rest) =
      readPlain false floor (cs.reverse ++ text) Gap.none (p.behind cs.length rest) rest := by
  induction cs generalizing p text with
  | nil =>
      obtain ⟨_, _, _, _⟩ := p
      cases hp
      rfl
  | cons c cs ih =>
      obtain ⟨⟨hspace, hbreak, hcolon⟩, hcs⟩ := List.forall_mem_cons.1 hcs
      have hnext : (p.next c (cs ++ rest)).rest = cs ++ rest := by rw [Cursor.next_eq_behind hbreak]; rfl
      have hbehind : (p.next c (cs ++ rest)).behind cs.length rest = p.behind (c :: cs).length rest := by
        rw [Cursor.next_eq_behind hbreak, Cursor.behind_behind, List.length_cons, Nat.add_comm]
      have hstep : readPlain false floor text Gap.none p (c :: (cs ++ rest)) =
          readPlain false floor (c :: text) Gap.none (p.next c (cs ++ rest)) (cs ++ rest) := by
        rw [readPlain]
        simp [hspace, hbreak, hcolon, Gap.none, Gap.isNone, Gap.folded, Cursor.next]
      rw [List.cons_append, hstep, ih hcs hnext, hbehind, List.reverse_cons, List.append_assoc, List.singleton_append]

/-- A colon and a gap end a plain scalar. -/
theorem readPlain_colon (h : atGap more = true) : readPlain false floor text Gap.none p (':' :: more) =
    some (text, false, { p with rest := ':' :: more }) := by
  have hspace : isSpace ':' = false := rfl
  have hbreak : isBreak ':' = false := rfl
  simp [readPlain, hspace, hbreak, h, Gap.none, Gap.isNone, Gap.crossesLine]

/-- So does a break, if the next line is not indented. -/
theorem readPlain_break (hmore : AtToken more) (hfloor : 0 < floor) :
    readPlain false floor text Gap.none p ('\n' :: more) = some (text, true, ⟨p.line + 1, 0, p.index + 1, more⟩) := by
  have hstep : readPlain false floor text Gap.none p ('\n' :: more) =
      readPlain false floor text (.breaks (some '\n') []) ⟨p.line + 1, 0, p.index + 1, more⟩ more := by
    rw [readPlain]
    rfl
  rw [hstep]
  cases more with
  | nil => rfl
  | cons c more =>
      obtain ⟨hspace, hbreak, _⟩ := hmore c rfl
      rw [readPlain]
      simp [hspace, hbreak, hfloor, Gap.isNone, Gap.crossesLine]

namespace PlainForm

theorem reads_key (h : PlainForm cs) (hp : p.rest = cs ++ ':' :: more) (hmore : atGap more = true) :
    readPlain false floor [] Gap.none p (cs ++ ':' :: more) =
      some (cs.reverse, false, p.behind cs.length (':' :: more)) := by
  rw [readPlain_chars h.chars hp, readPlain_colon hmore, List.append_nil]
  rfl

theorem reads_value (h : PlainForm cs) (hp : p.rest = cs ++ '\n' :: more) (hmore : AtToken more)
    (hfloor : 0 < floor) : readPlain false floor [] Gap.none p (cs ++ '\n' :: more) =
      some (cs.reverse, true, ⟨p.line + 1, 0, p.index + cs.length + 1, more⟩) := by
  rw [readPlain_chars h.chars hp, readPlain_break hmore hfloor, List.append_nil]
  rfl

end PlainForm

/-! ## Scalars between double quotation marks -/

/-- The letters behind a backslash that spell one character. -/
def namedEscapes : List (Char × Char) :=
  [('0', '\x00'), ('a', '\x07'), ('b', '\x08'), ('t', '\t'), ('\t', '\t'), ('n', '\n'), ('v', '\x0b'), ('f', '\x0c'),
    ('r', '\r'), ('e', '\x1b'), (' ', ' '), ('"', '"'), ('/', '/'), ('\\', '\\'), ('N', '\u0085'), ('_', '\u00a0'),
    ('L', '\u2028'), ('P', '\u2029')]

/-- The letters behind a backslash that spell a character by as many digits. -/
def digitEscapes : List (Char × Nat) := [('x', 2), ('u', 4), ('U', 8)]

/-- What may stand behind a backslash, and the character that it spells. -/
inductive EscapeForm : List Char → Char → Prop
  | named {d c : Char} : (d, c) ∈ namedEscapes → EscapeForm [d] c
  | digits {d ds v} : (d, ds.length) ∈ digitEscapes → Number.ofDigitsIn? 16 ds = some v →
      v < 0xD800 ∨ 0xDFFF < v → v ≤ 0x10FFFF → EscapeForm (d :: ds) (Char.ofNat v)

/-- A text as it stands between the marks, and the characters that it spells. -/
inductive QuotedForm : List Char → List Char → Prop
  | nil : QuotedForm [] []
  | plain {c : Char} {cs s : List Char} : c ≠ '"' → c ≠ '\\' → isBreak c = false → QuotedForm cs s →
      QuotedForm (c :: cs) (c :: s)
  | escape {c : Char} {e cs s : List Char} : EscapeForm e c → QuotedForm cs s → QuotedForm ('\\' :: (e ++ cs)) (c :: s)

theorem EscapeForm.reads {e : List Char} (h : EscapeForm e c) (rest : List Char) :
    escape? (e ++ rest) = some (c, e.length) := by
  cases h with
  | named hnamed =>
      simp only [namedEscapes, List.mem_cons, Prod.mk.injEq, List.not_mem_nil, or_false] at hnamed
      rcases hnamed with ⟨rfl, rfl⟩ | ⟨rfl, rfl⟩ | ⟨rfl, rfl⟩ | ⟨rfl, rfl⟩ | ⟨rfl, rfl⟩ | ⟨rfl, rfl⟩ | ⟨rfl, rfl⟩ |
        ⟨rfl, rfl⟩ | ⟨rfl, rfl⟩ | ⟨rfl, rfl⟩ | ⟨rfl, rfl⟩ | ⟨rfl, rfl⟩ | ⟨rfl, rfl⟩ | ⟨rfl, rfl⟩ | ⟨rfl, rfl⟩ |
        ⟨rfl, rfl⟩ | ⟨rfl, rfl⟩ | ⟨rfl, rfl⟩ <;> rfl
  | @digits d ds v hlength hvalue hscalar hmost =>
      have hhex : hexEscape? ds.length (ds ++ rest) = some (Char.ofNat v, ds.length + 1) := by
        have hrange : ¬ (0xD800 ≤ v ∧ v ≤ 0xDFFF ∨ 0x10FFFF < v) := by omega
        simp [hexEscape?, hvalue, hrange]
      simp only [digitEscapes, List.mem_cons, Prod.mk.injEq, List.not_mem_nil, or_false] at hlength
      rcases hlength with ⟨rfl, hlength⟩ | ⟨rfl, hlength⟩ | ⟨rfl, hlength⟩
      all_goals
        rw [hlength] at hhex
        simp [escape?, hhex, hlength]

theorem EscapeForm.head {e : List Char} (h : EscapeForm e c) : ∃ d ds, e = d :: ds ∧ isBreak d = false := by
  cases h with
  | @named d _ hnamed =>
      refine ⟨d, [], rfl, ?_⟩
      have hall : ∀ e ∈ namedEscapes, isBreak e.1 = false := by decide
      exact hall _ hnamed
  | @digits d ds _ hlength =>
      refine ⟨d, ds, rfl, ?_⟩
      have hall : ∀ e ∈ digitEscapes, isBreak e.1 = false := by decide
      exact hall _ hlength

theorem not_atDocumentMark (hp : 0 < p.column) : ({ p with rest := rest } : Cursor).atDocumentMark = false := by
  simp [Cursor.atDocumentMark, Cursor.atMarker, Nat.ne_of_gt hp]

section Steps

variable {gap : List Char} (hp : 0 < p.column)

include hp

theorem readDouble_mark : readDouble text (.blanks gap) p ('"' :: rest) = some (gap ++ text, p.behind 1 rest) := by
  have hspace : isSpace '"' = false := rfl
  have hbreak : isBreak '"' = false := rfl
  rw [readDouble]
  simp [hspace, hbreak, not_atDocumentMark hp, Cursor.next_eq_behind hbreak, Gap.folded]

omit hp in
theorem readDouble_blank (hc : isSpace c = true) (hbreak : isBreak c = false) :
    readDouble text (.blanks gap) p (c :: rest) = readDouble text (.blanks (c :: gap)) (p.behind 1 rest) rest := by
  rw [readDouble]
  simp [hc, Cursor.next_eq_behind hbreak, Gap.addBlank]

theorem readDouble_plain (hc : isSpace c = false) (hbreak : isBreak c = false) (hmark : c ≠ '"') (hback : c ≠ '\\') :
    readDouble text (.blanks gap) p (c :: rest) =
      readDouble (c :: (gap ++ text)) Gap.none (p.behind 1 rest) rest := by
  rw [readDouble]
  simp [hc, hbreak, hmark, hback, not_atDocumentMark hp, Cursor.next_eq_behind hbreak, Gap.folded]

theorem readDouble_escape {e : List Char} (he : EscapeForm e c) :
    readDouble text (.blanks gap) p ('\\' :: (e ++ rest)) =
      readDouble (c :: (gap ++ text)) Gap.none (p.behind (e.length + 1) p.rest) rest := by
  obtain ⟨d, ds, rfl, hbreak⟩ := he.head
  have hspace : isSpace '\\' = false := rfl
  have hbreak' : isBreak '\\' = false := rfl
  have hread : escape? (d :: (ds ++ rest)) = some (c, (d :: ds).length) := he.reads rest
  have hdrop : (d :: (ds ++ rest)).drop (d :: ds).length = rest := List.drop_left
  rw [readDouble]
  simp only [hspace, hbreak', not_atDocumentMark hp]
  simp only [List.cons_append, hbreak, hread, hdrop]
  simp [Gap.folded, Cursor.behind, Nat.add_assoc]

end Steps

/-- What is between the marks is read up to the second one. -/
theorem QuotedForm.reads {gap : List Char} (h : QuotedForm cs s) (hp : 0 < p.column) :
    readDouble text (.blanks gap) p (cs ++ '"' :: rest) =
      some (s.reverse ++ (gap ++ text), p.behind (cs.length + 1) rest) := by
  induction h generalizing text gap p with
  | nil => exact readDouble_mark hp
  | @plain c cs s hmark hback hbreak _ ih =>
      have hp' : 0 < (p.behind 1 (cs ++ '"' :: rest)).column := Nat.add_pos_right _ Nat.one_pos
      have hcount : 1 + (cs.length + 1) = (c :: cs).length + 1 := Nat.add_comm _ _
      rw [List.cons_append]
      cases hspace : isSpace c with
      | true =>
          rw [readDouble_blank hspace hbreak, ih hp', Cursor.behind_behind, hcount]
          simp
      | false =>
          rw [readDouble_plain hp hspace hbreak hmark hback, Gap.none, ih hp', Cursor.behind_behind, hcount]
          simp
  | @escape c e cs s he _ ih =>
      have hp' : 0 < (p.behind (e.length + 1) p.rest).column := Nat.add_pos_right _ (Nat.succ_pos _)
      have hcount : e.length + 1 + (cs.length + 1) = ('\\' :: (e ++ cs)).length + 1 := by
        simp only [List.length_cons, List.length_append]
        omega
      rw [List.cons_append, List.append_assoc, readDouble_escape hp he, Gap.none, ih hp', Cursor.behind_behind, hcount]
      simp

end MailTemplate.Yaml
