import MailTemplate.Proofs.Template.Paths

/-!
# Spelled tokens

Tokens can be written down, each as it is spelled and with a space between them, and are read back from what is
written (`tokens_spelled`).
-/

namespace MailTemplate

open Text

/-! ## Spellings -/

/-- A text as it stands between quotation marks: backslashes and the mark itself are behind a backslash. -/
def quotedChars (quote : Char) (cs : List Char) : List Char :=
  cs.flatMap fun c => if c = '\\' ∨ c = quote then ['\\', c] else [c]

/-- Whether a token is spelled so. A string has either quotation mark around it, and a number digits, with or
without a fraction. -/
inductive Spelled : Token → List Char → Prop
  | keyword (k : Keyword) : Spelled (.keyword k) k.spelling
  | symbol (s : Symbol) : Spelled (.symbol s) s.spelling
  | ident {name : String} : IsWord name → (∀ k : Keyword, name.toList ≠ k.spelling) →
      Spelled (.ident name) name.toList
  | whole {ds} : ds ≠ [] → (∀ d ∈ ds, d.isDigit = true) → Spelled (.number (numberValue ds [])) ds
  | decimal {ds fs} : ds ≠ [] → fs ≠ [] → (∀ d ∈ ds, d.isDigit = true) → (∀ d ∈ fs, d.isDigit = true) →
      Spelled (.number (numberValue ds fs)) (ds ++ '.' :: fs)
  | string {quote} (text : String) : quote = '"' ∨ quote = '\'' →
      Spelled (.string text) (quote :: (quotedChars quote text.toList ++ [quote]))

/-! ## Strings -/

theorem readString_quoted {quote : Char} (hquote : quote ≠ '\\') (hself : ∀ c, c = '\\' ∨ c = quote → unescape c = c)
    (cs rest : List Char) : readString quote (quotedChars quote cs ++ quote :: rest) =
      some (cs, quotedChars quote cs ++ [quote], rest) := by
  induction cs with
  | nil => simp [quotedChars, readString.eq_3 _ _ _ fun _ _ he => absurd he hquote]
  | cons c cs ih =>
      rw [quotedChars, List.flatMap_cons, ← quotedChars]
      by_cases hc : c = '\\' ∨ c = quote
      · rw [if_pos hc]
        simp [readString, ih, hself c hc]
      · rw [if_neg hc]
        rw [not_or] at hc
        simp [readString.eq_3 _ _ _ fun _ _ he => absurd he hc.1, hc.2, ih]

theorem readToken_quoted {quote : Char} (hquote : quote = '"' ∨ quote = '\'') (text : String) (rest : List Char) :
    readToken quote (quotedChars quote text.toList ++ quote :: rest) =
      .ok (.string text, quote :: (quotedChars quote text.toList ++ [quote]), rest) := by
  have hback : quote ≠ '\\' := by rcases hquote with rfl | rfl <;> decide
  have hself : ∀ c, c = '\\' ∨ c = quote → unescape c = c := by
    rintro c (rfl | rfl)
    · rfl
    · rcases hquote with rfl | rfl <;> rfl
  rw [readToken, if_pos (by simpa using hquote), readString_quoted hback hself]
  simp

/-! ## Numbers -/

/-- A space is behind the digits of a number, or the dot of its fraction. -/
theorem readNumber_spelled {ds fs : List Char} (hds : ∀ d ∈ ds, d.isDigit = true)
    (hfs : ∀ d ∈ fs, d.isDigit = true) (rest : List Char) :
    readNumber (numberSpelling ds fs ++ ' ' :: rest) =
      .ok (.number (numberValue ds fs), numberSpelling ds fs, ' ' :: rest) := by
  have hspace : ∀ c ∈ (' ' :: rest).head?, c.isDigit = false := by
    rintro c ⟨⟩
    rfl
  cases fs with
  | nil =>
      simp only [numberSpelling, List.isEmpty_nil, if_true, readNumber, takeWhile_exact hds hspace,
        dropWhile_exact hds hspace]
      rfl
  | cons f fs =>
      have hdot : ∀ c ∈ ('.' :: ((f :: fs) ++ ' ' :: rest)).head?, c.isDigit = false := by
        rintro c ⟨⟩
        rfl
      have hf : f.isDigit = true := hfs f List.mem_cons_self
      have hfraction : readFraction ('.' :: ((f :: fs) ++ ' ' :: rest)) = (f :: fs, ' ' :: rest) := by
        have htake := takeWhile_exact hfs hspace
        have hdrop := dropWhile_exact hfs hspace
        rw [List.cons_append] at htake hdrop ⊢
        rw [readFraction, if_pos hf, htake, hdrop]
      simp only [numberSpelling, List.isEmpty_cons, Bool.false_eq_true, if_false, List.append_assoc, List.cons_append,
        readNumber]
      rw [← List.cons_append, takeWhile_exact hds hdot, dropWhile_exact hds hdot, hfraction]
      rfl

theorem readToken_digit {c : Char} (hc : c.isDigit = true) (cs : List Char) :
    readToken c cs = readNumber (c :: cs) := by
  have hquote : ¬ (c = '"' || c = '\'') = true := by
    rw [Bool.or_eq_true, decide_eq_true_eq, decide_eq_true_eq]
    rintro (rfl | rfl) <;> revert hc <;> decide
  rw [readToken, if_neg hquote, if_pos hc]

theorem next?_number {ds fs : List Char} (hne : ds ≠ []) (hds : ∀ d ∈ ds, d.isDigit = true)
    (hfs : ∀ d ∈ fs, d.isDigit = true) (rest : List Char) :
    Lexeme.next? (numberSpelling ds fs ++ ' ' :: rest) =
      .ok (some (⟨[], numberSpelling ds fs, .number (numberValue ds fs)⟩, ' ' :: rest)) := by
  obtain ⟨d, more, rfl⟩ := List.exists_cons_of_ne_nil hne
  have hd : d.isDigit = true := hds d List.mem_cons_self
  have hread := readNumber_spelled hds hfs rest
  rw [numberSpelling_eq, List.cons_append, List.cons_append] at hread ⊢
  refine Lexeme.next?_eq_some_iff.2 ⟨d, _, rfl, rfl, isBlank_of_isWordChar (isWordChar_of_isDigit hd), ?_, ?_⟩
  · rw [← Bool.not_eq_true]
    intro hcomment
    obtain ⟨_, hslash⟩ := startsComment_eq_true hcomment
    obtain ⟨rfl, _⟩ := List.cons.inj hslash
    revert hd
    decide
  · rw [readToken_digit hd, hread]

/-! ## Tokens with spaces between them -/

namespace Spelled

variable {t : Token} {w : List Char}

theorem next?_space (h : Spelled t w) : Lexeme.next? (w ++ [' ']) = .ok (some (⟨[], w, t⟩, [' '])) := by
  cases h with
  | keyword k => cases k <;> rfl
  | symbol s => cases s <;> rfl
  | ident hname hfree =>
      have hfree : Keyword.ofWord? _ = none := List.find?_eq_none.2 fun k _ => by simpa using (hfree k).symm
      refine next?_word hname hfree [' '] ?_
      rintro c ⟨⟩
      rfl
  | whole hne hds => exact next?_number hne hds (List.forall_mem_nil _) []
  | @decimal ds fs hne hfs hds hdigits =>
      have hnext := next?_number hne hds hdigits []
      rwa [numberSpelling, if_neg (by simpa using hfs)] at hnext
  | @string quote text hquote =>
      refine Lexeme.next?_eq_some_iff.2 ⟨quote, quotedChars quote text.toList ++ [quote, ' '], by simp, rfl, ?_, ?_,
        readToken_quoted hquote text [' ']⟩
      all_goals rcases hquote with rfl | rfl <;> rfl

/-- A spelled token is read with any blanks before it, at the end of a text or with a space behind it. -/
theorem next? (h : Spelled t w) {gap rest : List Char} (hgap : allBlank gap = true)
    (hrest : ∀ c ∈ rest.head?, c = ' ') : Lexeme.next? (gap ++ w ++ rest) = .ok (some (⟨gap, w, t⟩, rest)) := by
  refine Lexeme.next?_like h.next?_space hgap ?_
  cases rest with
  | nil => exact .nil
  | cons c rest =>
      obtain rfl := hrest c rfl
      exact .cons (by decide)

end Spelled

theorem tokens_separated {ts : List Token} {ws : List (List Char)} (h : List.Forall₂ Spelled ts ws)
    {gap : List Char} (hgap : allBlank gap = true) : tokens (gap ++ [' '].intercalate ws) = .ok ts := by
  induction h generalizing gap with
  | nil =>
      rw [List.intercalate_nil, List.append_nil]
      exact tokens_of_nothing (Lexeme.next?_of_nothing (.inl hgap))
  | @cons t w ts ws hw h ih =>
      cases h with
      | nil =>
          have hnext : Lexeme.next? (gap ++ w ++ []) = .ok (some (⟨gap, w, t⟩, [])) := hw.next? hgap nofun
          rw [List.append_nil] at hnext
          rw [List.intercalate_singleton]
          exact tokens_of_next? hnext (tokens_of_nothing rfl)
      | @cons _ w' _ ws _ _ =>
          have hspace : ∀ c ∈ (' ' :: [' '].intercalate (w' :: ws)).head?, c = ' ' := by
            rintro c ⟨⟩
            rfl
          have hmore := ih (rfl : allBlank [' '] = true)
          rw [List.intercalate_cons_cons, List.append_assoc w, List.singleton_append, ← List.append_assoc]
          exact tokens_of_next? (hw.next? hgap hspace) hmore

/-- Tokens that are spelled, with a space between each two, are read back. -/
theorem tokens_spelled {ts : List Token} {ws : List (List Char)} (h : List.Forall₂ Spelled ts ws) :
    tokens ([' '].intercalate ws) = .ok ts :=
  tokens_separated h (rfl : allBlank [] = true)

/-- Tokens of every kind; the string holds what ends a string, a line or a block elsewhere. -/
def mixedTokens : List Token :=
  [.keyword .ifThen, .ident "if_1", .symbol .less, .symbol .assign, .number (numberValue ['0', '7'] []),
    .number (numberValue ['1', '2'] ['5', '0']), .string "it's // \\ \x7b\n\"", .symbol .slash, .symbol .slash]

def mixedSpellings : List (List Char) :=
  ["if".toList, "if_1".toList, ['<'], ['='], ['0', '7'], "12.50".toList,
    "'it\\'s // \\\\ \x7b\n\"'".toList, ['/'], ['/']]

theorem tokens_spelled_mixed :
    List.Forall₂ Spelled mixedTokens mixedSpellings ∧
      tokens "if if_1 < = 07 12.50 'it\\'s // \\\\ \x7b\n\"' / /".toList = .ok mixedTokens := by
  have hname : IsWord "if_1" := ⟨rfl, List.all_eq_true.1 rfl⟩
  have hfree : ∀ k : Keyword, "if_1".toList ≠ k.spelling := by rintro ⟨⟩ <;> decide
  have hwhole := Spelled.whole (List.cons_ne_nil '0' ['7']) (List.all_eq_true.1 rfl)
  have hdecimal := Spelled.decimal (List.cons_ne_nil '1' ['2']) (List.cons_ne_nil '5' ['0']) (List.all_eq_true.1 rfl)
    (List.all_eq_true.1 rfl)
  have h : List.Forall₂ Spelled mixedTokens mixedSpellings :=
    .cons (.keyword .ifThen) (.cons (.ident hname hfree) (.cons (.symbol .less) (.cons (.symbol .assign)
      (.cons hwhole (.cons hdecimal (.cons (.string _ (.inr rfl)) (.cons (.symbol .slash)
        (.cons (.symbol .slash) .nil))))))))
  exact ⟨h, tokens_spelled h⟩

end MailTemplate
