import MailTemplate.Proofs.Results
import MailTemplate.Proofs.Text.Blank
import MailTemplate.Token.Lexeme
import Mathlib

/-!
# Other text around tokens

A lexeme is read in the same way with other blanks before it, and with other text behind it that begins alike
(`Lexeme.next?_like`). So a text that is cut behind some of its tokens gives the tokens before the cut, and
what stands behind the cut gives the others (`Begins.cut`).
-/

namespace MailTemplate

open Text

/-! ## Characters of a token -/

theorem isBlank_of_isWordChar {c : Char} (h : isWordChar c = true) : isBlank c = false := by
  simp only [isWordChar, Char.isAlphanum, Char.isAlpha, Char.isUpper, Char.isLower, Char.isDigit,
    Bool.or_eq_true, Bool.and_eq_true, decide_eq_true_eq, beq_iff_eq, ge_iff_le,
    UInt32.le_iff_toNat_le] at h
  rcases h with ((h | h) | h) | rfl
  case inr => decide
  all_goals
    simp only [isBlank, Bool.or_eq_false_iff, Bool.and_eq_false_iff,
      decide_eq_false_iff_not, beq_eq_false_iff_ne]
    simp at h
    omega

theorem isWordChar_of_isDigit {c : Char} (h : c.isDigit = true) : isWordChar c = true := by
  simp [isWordChar, Char.isAlphanum, h]

/-! ## Words and digits with other text behind them -/

section Spans

variable {p : Char → Bool} {cs front rest : List Char}

theorem takeWhile_exact (hfront : ∀ c ∈ front, p c = true) (hrest : ∀ c ∈ rest.head?, p c = false) :
    (front ++ rest).takeWhile p = front := by
  rw [List.takeWhile_append_of_pos hfront]
  cases rest with
  | nil => simp
  | cons c rest => simp [hrest c rfl]

theorem dropWhile_exact (hfront : ∀ c ∈ front, p c = true) (hrest : ∀ c ∈ rest.head?, p c = false) :
    (front ++ rest).dropWhile p = rest := by
  rw [List.dropWhile_append_of_pos hfront]
  cases rest with
  | nil => rfl
  | cons c rest => simp [hrest c rfl]

theorem not_head_of_dropWhile {c : Char} (hc : c ∈ (cs.dropWhile p).head?) : p c = false := by
  have hhead := List.head?_dropWhile_not p cs
  rw [hc] at hhead
  simpa using hhead

end Spans

/-! ## Tokens with other text behind them -/

/-- `BeginsLike rest rest'`: a token that is read with `rest` behind it is read alike with `rest'` behind it. A token
looks at the first character behind it, and at the second when the first is a dot, which a number may go on
with. -/
inductive BeginsLike : List Char → List Char → Prop
  | nil {rest} : BeginsLike rest []
  | cons {c cs ds} : c ≠ '.' → BeginsLike (c :: cs) (c :: ds)
  | dot {cs ds} : (∀ d ∈ ds.head?, d ∈ cs.head?) → BeginsLike ('.' :: cs) ('.' :: ds)

namespace BeginsLike

variable {rest rest' : List Char}

theorem head (h : BeginsLike rest rest') : ∀ c ∈ rest'.head?, c ∈ rest.head? := by
  cases h <;> simp

theorem cons_cons (h : BeginsLike rest rest') (c : Char) : BeginsLike (c :: rest) (c :: rest') := by
  by_cases hc : c = '.'
  · subst hc
    exact .dot h.head
  · exact .cons hc

theorem of_cut (h : rest' <+: rest) : BeginsLike rest rest' := by
  obtain ⟨more, rfl⟩ := h
  induction rest' with
  | nil => exact .nil
  | cons c ds ih => exact ih.cons_cons c

/-- What is behind a character other than a dot does not matter. -/
theorem of_barrier {c : Char} (hc : c ≠ '.') (front cs ds : List Char) :
    BeginsLike (front ++ c :: cs) (front ++ c :: ds) := by
  induction front with
  | nil => exact .cons hc
  | cons d front ih => exact ih.cons_cons d

/-- The first two characters of a token and of what is behind it. -/
theorem take_two (h : BeginsLike rest rest') {spelling : List Char} (hne : spelling ≠ []) :
    (spelling ++ rest').take 2 <+: spelling ++ rest := by
  match spelling, hne with
  | [c], _ =>
      have hhead := h.head
      cases rest' with
      | nil => simp
      | cons d ds =>
          obtain ⟨more, rfl⟩ := List.head?_eq_some_iff.1 (hhead d rfl)
          simp
  | c :: d :: spelling, _ => simp

end BeginsLike

section Behind

variable {cs spelling rest rest' : List Char} {t : Token}

theorem readString_cut {quote : Char} {text raw : List Char} (rest' : List Char) (hquote : quote ≠ '\\')
    (h : readString quote cs = some (text, raw, rest)) :
    readString quote (raw ++ rest') = some (text, raw, rest') := by
  fun_induction readString quote cs generalizing text raw rest with
  | case1 => simp at h
  | case2 c cs ih =>
      obtain ⟨r, hr, he⟩ := Option.map_eq_some_iff.1 h
      cases he
      simp [readString, ih hr]
  | case3 cs hq =>
      simp only [Option.some.injEq, Prod.mk.injEq] at h
      obtain ⟨rfl, rfl, rfl⟩ := h
      simp [readString.eq_3 _ _ _ fun _ _ hc => absurd hc hquote]
  | case4 c cs hc hne ih =>
      obtain ⟨r, hr, he⟩ := Option.map_eq_some_iff.1 h
      cases he
      -- A backslash at the end of the text cannot be part of a string.
      have hback : c ≠ '\\' := by
        rintro rfl
        cases cs with
        | nil => simp [readString] at hr
        | cons d cs => exact hc d cs rfl rfl
      simp [readString.eq_3 _ _ _ fun _ _ he => absurd he hback, hne, ih hr]

theorem getLast?_readString {quote : Char} {text raw : List Char}
    (h : readString quote cs = some (text, raw, rest)) : raw.getLast? = some quote := by
  fun_induction readString quote cs generalizing text raw rest with
  | case1 => simp at h
  | case2 c cs ih | case4 c cs _ _ ih =>
      obtain ⟨r, hr, he⟩ := Option.map_eq_some_iff.1 h
      cases he
      simp [List.getLast?_cons, ih hr]
  | case3 cs hq =>
      simp only [Option.some.injEq, Prod.mk.injEq] at h
      obtain ⟨rfl, rfl, rfl⟩ := h
      rfl

theorem readFraction_of_none (h : ∀ d ds, cs = '.' :: d :: ds → d.isDigit = false) :
    readFraction cs = ([], cs) := by
  unfold readFraction
  split
  · rename_i d ds
    simp [h d ds rfl]
  · rfl

theorem readFraction_like (hlike : BeginsLike (readFraction cs).2 rest') :
    readFraction (numberSpelling [] (readFraction cs).1 ++ rest') = ((readFraction cs).1, rest') := by
  by_cases hfraction : ∃ d ds, cs = '.' :: d :: ds ∧ d.isDigit = true
  · obtain ⟨d, ds, rfl, hd⟩ := hfraction
    simp only [readFraction, hd, if_true] at hlike ⊢
    have hdigits : ∀ c ∈ (d :: ds).takeWhile Char.isDigit, c.isDigit = true :=
      fun c hc => List.mem_takeWhile_imp hc
    have hrest : ∀ c ∈ rest'.head?, c.isDigit = false := fun c hc => not_head_of_dropWhile (hlike.head c hc)
    have htake := takeWhile_exact hdigits hrest
    have hdrop := dropWhile_exact hdigits hrest
    simp_all [numberSpelling]
  · have hnone : ∀ d ds, cs = '.' :: d :: ds → d.isDigit = false := by simpa using hfraction
    rw [readFraction_of_none hnone] at hlike ⊢
    refine readFraction_of_none fun d ds hds => ?_
    simp only [numberSpelling, List.isEmpty_nil, if_true, List.nil_append] at hds
    subst hds
    cases hlike with
    | cons hdot => exact absurd rfl hdot
    | dot hsecond =>
        obtain ⟨more, rfl⟩ := List.head?_eq_some_iff.1 (hsecond d rfl)
        exact hnone d more rfl

theorem readNumber_like (h : readNumber cs = .ok (t, spelling, rest)) (hlike : BeginsLike rest rest') :
    readNumber (spelling ++ rest') = .ok (t, spelling, rest') := by
  simp only [readNumber] at h ⊢
  split at h
  · simp at h
  · rename_i hletter
    simp only [Except.ok.injEq, Prod.mk.injEq] at h
    obtain ⟨rfl, rfl, rfl⟩ := h
    have hfraction := readFraction_like hlike
    have hdigits : ∀ c ∈ cs.takeWhile Char.isDigit, c.isDigit = true := fun c hc => List.mem_takeWhile_imp hc
    -- The digits end where they did: before the dot, or before what is behind the number.
    have hbehind : ∀ c ∈ (numberSpelling [] (readFraction (cs.dropWhile Char.isDigit)).1 ++ rest').head?,
        c.isDigit = false := by
      intro c hc
      have hhead : c ∈ (cs.dropWhile Char.isDigit).head? := by
        rw [readFraction_eq (cs.dropWhile Char.isDigit)]
        rw [List.head?_append, Option.mem_def, Option.or_eq_some_iff] at hc ⊢
        exact hc.imp_right fun hc => ⟨hc.1, hlike.head c hc.2⟩
      exact not_head_of_dropWhile hhead
    have hnone : rest'.head?.any isWordStart = false := by
      cases rest' with
      | nil => rfl
      | cons c ds =>
          rw [hlike.head c rfl] at hletter
          simpa using hletter
    rw [numberSpelling_eq, List.append_assoc, takeWhile_exact hdigits hbehind, dropWhile_exact hdigits hbehind,
      hfraction]
    simp [hnone, ← numberSpelling_eq]

theorem Symbol.length_spelling_le (s : Symbol) : s.spelling.length ≤ 2 := by cases s <;> decide

theorem Symbol.leading?_like {s : Symbol} (h : leading? cs = some s)
    (hlike : BeginsLike (cs.drop s.spelling.length) rest') : leading? (s.spelling ++ rest') = some s := by
  obtain ⟨hs, before, after, hall, hbefore⟩ := List.find?_eq_some_iff_append.1 h
  refine List.find?_eq_some_iff_append.2 ⟨?_, before, after, hall, ?_⟩
  · simp
  · intro s' hs'
    have hcut := hlike.take_two s.spelling_ne_nil
    rw [← leading?_eq h] at hcut
    have hnot := hbefore s' hs'
    simp only [Bool.not_eq_true', ← Bool.not_eq_true, List.isPrefixOf_iff_prefix] at hnot ⊢
    intro hmore
    refine hnot (List.IsPrefix.trans ?_ hcut)
    exact List.prefix_take_iff.2 ⟨hmore, s'.length_spelling_le⟩

theorem readToken_like {c : Char} (h : readToken c cs = .ok (t, spelling, rest)) (hlike : BeginsLike rest rest') :
    ∃ more, spelling = c :: more ∧ readToken c (more ++ rest') = .ok (t, spelling, rest') := by
  have hspelling := (readToken_eq h).1
  obtain ⟨more, rfl⟩ : ∃ more, spelling = c :: more := by
    cases spelling with
    | nil => exact absurd rfl (readToken_eq h).2
    | cons d more =>
        cases hspelling
        exact ⟨more, rfl⟩
  refine ⟨more, rfl, ?_⟩
  unfold readToken at h ⊢
  split at h
  · rename_i hquote
    rw [if_pos hquote]
    split at h
    · rename_i hs
      cases h
      have hback : c ≠ '\\' := by
        rintro rfl
        simp at hquote
      simp [readString_cut rest' hback hs]
    · cases h
  · rename_i hquote
    rw [if_neg hquote]
    split at h
    · rename_i hdigit
      rw [if_pos hdigit]
      exact readNumber_like h hlike
    · rename_i hdigit
      rw [if_neg hdigit]
      split at h
      · rename_i hword
        simp only [Except.ok.injEq, Prod.mk.injEq] at h
        obtain ⟨rfl, hmore, rfl⟩ := h
        have hchars : ∀ d ∈ c :: more, isWordChar d = true := by
          rw [← hmore]
          exact fun d hd => List.mem_takeWhile_imp hd
        have hrest : ∀ d ∈ rest'.head?, isWordChar d = false :=
          fun d hd => not_head_of_dropWhile (hlike.head d hd)
        have htake := takeWhile_exact hchars hrest
        have hdrop := dropWhile_exact hchars hrest
        rw [List.cons_append] at htake hdrop
        simp [hword, hmore, htake, hdrop]
      · rename_i hword
        rw [if_neg hword]
        split at h
        · rename_i s hs
          simp only [Except.ok.injEq, Prod.mk.injEq] at h
          obtain ⟨rfl, hmore, rfl⟩ := h
          have hlonger := Symbol.leading?_like hs hlike
          rw [hmore, List.cons_append] at hlonger
          rw [hlonger]
          simp only [hmore, ← List.cons_append, List.drop_left']
        · cases h

/-! ## The characters of a token -/

theorem isDigit_of_mem_readFraction {d : Char} (hd : d ∈ (readFraction cs).1) : d.isDigit = true := by
  unfold readFraction at hd
  split at hd
  · split at hd
    · exact List.mem_takeWhile_imp hd
    · cases hd
  · cases hd

theorem readNumber_chars (h : readNumber cs = .ok (t, spelling, rest)) :
    (∃ x, t = .number x) ∧ ∀ d ∈ spelling, isWordChar d = true ∨ d = '.' := by
  simp only [readNumber] at h
  split at h
  · cases h
  · cases h
    refine ⟨⟨_, rfl⟩, fun d hd => ?_⟩
    have hdigit {d : Char} (hd : d ∈ cs.takeWhile Char.isDigit) : isWordChar d = true :=
      isWordChar_of_isDigit (List.mem_takeWhile_imp hd)
    unfold numberSpelling at hd
    split at hd
    · exact .inl (hdigit hd)
    · simp only [List.mem_append, List.mem_cons] at hd
      rcases hd with hd | hd | hd
      · exact .inl (hdigit hd)
      · exact .inr hd
      · exact .inl (isWordChar_of_isDigit (isDigit_of_mem_readFraction hd))

theorem wordToken_ne_symbol (w : List Char) (s : Symbol) : wordToken w ≠ .symbol s := by
  intro h
  unfold wordToken at h
  split at h <;> cases h

/-- A token is a string, a symbol, or made of letters, digits, underscores and dots. -/
theorem readToken_chars {c : Char} (h : readToken c cs = .ok (t, spelling, rest)) :
    (∃ text raw, t = .string (String.ofList text) ∧ spelling = c :: raw ∧ (c = '"' ∨ c = '\'') ∧
      readString c cs = some (text, raw, rest)) ∨
    (∃ s, t = .symbol s ∧ spelling = s.spelling) ∨
    ((∀ s, t ≠ .symbol s) ∧ ∀ d ∈ spelling, isWordChar d = true ∨ d = '.') := by
  unfold readToken at h
  split at h
  · rename_i hquote
    split at h
    · rename_i hs
      cases h
      exact .inl ⟨_, _, rfl, rfl, by simpa using hquote, hs⟩
    · cases h
  · split at h
    · obtain ⟨⟨x, rfl⟩, hchars⟩ := readNumber_chars h
      exact .inr (.inr ⟨fun s hs => (by cases hs), hchars⟩)
    · split at h
      · cases h
        exact .inr (.inr ⟨wordToken_ne_symbol _, fun d hd => .inl (List.mem_takeWhile_imp hd)⟩)
      · split at h
        · cases h
          exact .inr (.inl ⟨_, rfl, rfl⟩)
        · cases h

theorem not_blank_of_mem_symbol {s : Symbol} {d : Char} (hd : d ∈ s.spelling) : isBlank d = false := by
  have hall : s.spelling.all (fun c => !isBlank c) = true := by cases s <;> rfl
  simpa using List.all_eq_true.1 hall d hd

/-- A token ends with a character that is not blank, though a string may hold blanks. -/
theorem readToken_getLast? {c d : Char} (h : readToken c cs = .ok (t, spelling, rest))
    (hd : d ∈ spelling.getLast?) : isBlank d = false := by
  rcases readToken_chars h with ⟨text, raw, _, rfl, hquote, hs⟩ | ⟨s, _, rfl⟩ | ⟨_, hchars⟩
  · rw [List.getLast?_cons, getLast?_readString hs] at hd
    cases hd
    rcases hquote with rfl | rfl <;> decide
  · exact not_blank_of_mem_symbol (List.mem_of_getLast? hd)
  · rcases hchars d (List.mem_of_getLast? hd) with hword | rfl
    · exact isBlank_of_isWordChar hword
    · decide

end Behind

/-! ## Lexemes with other text behind them -/

theorem allBlank_leadingBlanks (cs : List Char) : allBlank (leadingBlanks cs) = true := by
  simpa [allBlank] using fun c hc => isBlank_of_mem_leadingBlanks hc

theorem leadingBlanks_append {gap cs : List Char} (hgap : allBlank gap = true) {c : Char}
    (hc : isBlank c = false) : leadingBlanks (gap ++ c :: cs) = gap := by
  rw [leadingBlanks, List.takeWhile_append_of_pos (by simpa [allBlank] using hgap)]
  simp [hc]

theorem trimStart_append {gap cs : List Char} (hgap : allBlank gap = true) {c : Char}
    (hc : isBlank c = false) : trimStart (gap ++ c :: cs) = c :: cs := by
  rw [trimStart, List.dropWhile_append_of_pos (by simpa [allBlank] using hgap)]
  simp [hc]

/-- Two slashes start a comment, and they are seen in the first two characters. -/
theorem startsComment_longer {cs ds : List Char} (h : cs.take 2 <+: ds) (hcs : startsComment cs = true) :
    startsComment ds = true := by
  unfold startsComment at hcs
  split at hcs
  · obtain ⟨more, rfl⟩ := h
    rfl
  · cases hcs

theorem trimEnd_cut (cs : List Char) : trimEnd cs <+: cs := by
  have := List.reverse_prefix.2 (List.dropWhile_suffix (p := isBlank) (l := cs.reverse))
  rwa [List.reverse_reverse] at this

theorem trimEnd_append {cs ds : List Char} (h : ∀ d ∈ cs.getLast?, isBlank d = false) :
    trimEnd (cs ++ ds) = cs ++ trimEnd ds := by
  simp only [trimEnd, List.reverse_append, List.dropWhile_append]
  split
  · rename_i hds
    rw [List.isEmpty_iff.1 hds]
    cases hcs : cs.reverse with
    | nil => simp_all
    | cons c more =>
        have hc : isBlank c = false := h c (by rw [← List.head?_reverse, hcs]; rfl)
        obtain rfl : cs = (c :: more).reverse := by rw [← hcs, List.reverse_reverse]
        simp [hc]
  · simp

namespace Lexeme

variable {cs rest : List Char} {l : Lexeme}

/-- What a lexeme is read off, by parts. -/
theorem next?_eq_some_iff : next? cs = .ok (some (l, rest)) ↔
    ∃ c r, cs = l.gap ++ c :: r ∧ allBlank l.gap = true ∧ isBlank c = false ∧
      startsComment (c :: r) = false ∧ readToken c r = .ok (l.token, l.spelling, rest) := by
  constructor
  · intro h
    unfold next? at h
    split at h
    · cases h
    · rename_i c r htrim
      split at h
      · cases h
      · rename_i hcomment
        split at h
        · rename_i htoken
          cases h
          refine ⟨c, r, ?_, allBlank_leadingBlanks cs, not_blank_of_trimStart htrim, ?_, htoken⟩
          · rw [← htrim, leadingBlanks_append_trimStart]
          · simpa using hcomment
        · cases h
  · rintro ⟨c, r, rfl, hgap, hc, hcomment, htoken⟩
    unfold next?
    rw [trimStart_append hgap hc, leadingBlanks_append hgap hc]
    simp [hcomment, htoken]

/-- A lexeme with other blanks before it and other text behind it. -/
theorem next?_like {gap rest' : List Char} (h : next? cs = .ok (some (l, rest)))
    (hgap : allBlank gap = true) (hlike : BeginsLike rest rest') :
    next? (gap ++ l.spelling ++ rest') = .ok (some ({ l with gap }, rest')) := by
  obtain ⟨c, r, rfl, _, hc, hcomment, htoken⟩ := next?_eq_some_iff.1 h
  obtain ⟨more, hspelling, hread⟩ := readToken_like htoken hlike
  rw [next?_eq_some_iff]
  refine ⟨c, more ++ rest', ?_, hgap, hc, ?_, hread⟩
  · simp [hspelling]
  · have hlonger := hlike.take_two (readToken_eq htoken).2
    rw [← (readToken_eq htoken).1, hspelling, List.cons_append] at hlonger
    rw [← Bool.not_eq_true] at hcomment ⊢
    exact fun h => hcomment (startsComment_longer hlonger h)

theorem next?_cut {gap rest' : List Char} (h : next? cs = .ok (some (l, rest)))
    (hgap : allBlank gap = true) (hrest : rest' <+: rest) :
    next? (gap ++ l.spelling ++ rest') = .ok (some ({ l with gap }, rest')) :=
  next?_like h hgap (.of_cut hrest)

theorem spelling_getLast? (h : next? cs = .ok (some (l, rest))) :
    ∀ d ∈ l.spelling.getLast?, isBlank d = false := by
  obtain ⟨_, _, _, _, _, _, htoken⟩ := next?_eq_some_iff.1 h
  exact fun d hd => readToken_getLast? htoken hd

/-- The text of some lexemes one after another. -/
def text (ls : List Lexeme) : List Char := ls.flatMap fun l => l.gap ++ l.spelling

theorem text_cons (l : Lexeme) (ls : List Lexeme) : text (l :: ls) = l.gap ++ l.spelling ++ text ls :=
  List.flatMap_cons

end Lexeme

/-! ## Texts by their first lexemes -/

/-- The text `cs` begins with the lexemes `ls`, and `rest` is behind them. -/
inductive Begins : List Char → List Lexeme → List Char → Prop
  | nil {cs} : Begins cs [] cs
  | cons {cs mid rest l ls} : Lexeme.next? cs = .ok (some (l, mid)) → Begins mid ls rest →
      Begins cs (l :: ls) rest

namespace Begins

variable {cs mid rest : List Char} {ls ms : List Lexeme}

theorem eq_append (h : Begins cs ls rest) : cs = Lexeme.text ls ++ rest := by
  induction h with
  | nil => rfl
  | cons hnext _ ih =>
      obtain ⟨he, _⟩ := Lexeme.next?_eq hnext
      simp [he, ih, Lexeme.text]

theorem split (h : Begins cs (ls ++ ms) rest) : ∃ mid, Begins cs ls mid ∧ Begins mid ms rest := by
  induction ls generalizing cs with
  | nil => exact ⟨cs, .nil, h⟩
  | cons l ls ih =>
      cases h with
      | cons hnext h =>
          obtain ⟨mid, hls, hms⟩ := ih h
          exact ⟨mid, .cons hnext hls, hms⟩

theorem cut {rest' : List Char} (h : Begins cs ls rest) (hrest : rest' <+: rest) :
    Begins (Lexeme.text ls ++ rest') ls rest' := by
  induction h with
  | nil => exact .nil
  | @cons cs mid rest l ls hnext h ih =>
      have hmid : Lexeme.text ls ++ rest' <+: mid := by
        rw [h.eq_append]
        exact (List.prefix_append_right_inj _).2 hrest
      have hgap : allBlank l.gap = true := by
        obtain ⟨_, _, _, hgap, _⟩ := Lexeme.next?_eq_some_iff.1 hnext
        exact hgap
      have hcut := Lexeme.next?_cut hnext hgap hmid
      simp only [Lexeme.text, List.flatMap_cons, List.append_assoc] at hcut ⊢
      exact .cons hcut (ih hrest)

/-- The last token ends with no blank. -/
theorem not_blank_of_getLast? (h : Begins cs ls rest) :
    ∀ d ∈ (Lexeme.text ls).getLast?, isBlank d = false := by
  induction h with
  | nil => nofun
  | @cons cs mid rest l ls hnext _ ih =>
      intro d hd
      rw [Lexeme.text_cons, List.getLast?_append, Option.mem_def, Option.or_eq_some_iff] at hd
      rcases hd with hd | ⟨_, hd⟩
      · exact ih d hd
      · rw [List.getLast?_append, Option.or_eq_some_iff] at hd
        rcases hd with hd | ⟨hnil, _⟩
        · exact Lexeme.spelling_getLast? hnext d hd
        · exact absurd (List.getLast?_eq_none_iff.1 hnil) (Lexeme.next?_eq hnext).2

/-- The first lexeme of a trimmed text has no blanks before it. -/
theorem trimmed {l : Lexeme} (h : Begins cs (l :: ls) rest) :
    Begins (trim cs) ({ l with gap := [] } :: ls) (trimEnd rest) := by
  cases h with
  | @cons _ mid _ _ _ hnext hmore =>
      obtain ⟨c, r, hcs, hgap, hc, _, htoken⟩ := Lexeme.next?_eq_some_iff.1 hnext
      have hfirst : Lexeme.next? (l.spelling ++ mid) = .ok (some ({ l with gap := [] }, mid)) :=
        Lexeme.next?_cut hnext (rfl : allBlank [] = true) (List.prefix_refl mid)
      have hbare : Begins (l.spelling ++ mid) ({ l with gap := [] } :: ls) rest := .cons hfirst hmore
      have htrim : trim cs = Lexeme.text ({ l with gap := [] } :: ls) ++ trimEnd rest := by
        rw [trim, hcs, trimStart_append hgap hc, (readToken_eq htoken).1, hbare.eq_append,
          trimEnd_append hbare.not_blank_of_getLast?]
      rw [htrim]
      exact hbare.cut (trimEnd_cut rest)

end Begins

theorem Lexeme.all_of_nothing {cs : List Char} (h : next? cs = .ok none) : all cs = .ok [] := by
  rw [all.eq_def]
  split <;> simp_all

theorem Lexeme.all_of_next? {cs rest : List Char} {l : Lexeme} (h : next? cs = .ok (some (l, rest))) :
    all cs = (all rest).map (l :: ·) := by
  rw [all.eq_def]
  split <;> rename_i he <;> rw [h] at he
  · cases he
  · cases he
  · cases he
    cases all rest <;> rfl

theorem Lexeme.all_eq_ok_iff {cs : List Char} {ls : List Lexeme} :
    all cs = .ok ls ↔ ∃ rest, Begins cs ls rest ∧ next? rest = .ok none := by
  constructor
  · intro h
    fun_induction all cs generalizing ls with
    | case1 => cases h
    | case2 cs hnext =>
        cases h
        exact ⟨cs, .nil, hnext⟩
    | case3 => cases h
    | case4 cs l mid hnext _ ls hls ih =>
        cases h
        obtain ⟨rest, hmid, hrest⟩ := ih hls
        exact ⟨rest, .cons hnext hmid, hrest⟩
  · rintro ⟨rest, h, hrest⟩
    induction h with
    | nil => exact all_of_nothing hrest
    | cons hnext _ ih =>
        rw [all_of_next? hnext, ih hrest]
        rfl

end MailTemplate
