import MailTemplate.Proofs.Template.Breaks
import MailTemplate.Proofs.Template.Closing

/-!
# Lines with a marker

No token but a string holds an `@`. So what is behind an `@` does not tell a statement from text
(`isStatement_marker`, `leadsWithOperator_marker`). Which lines the reader takes for text is put together from such
questions (`Reader.step_text_iff`).
-/

namespace MailTemplate

open Text

/-! ## Tokens before a marker -/

theorem readToken_of_marker {c : Char} {cs spelling rest : List Char} {t : Token}
    (h : readToken c cs = .ok (t, spelling, rest)) (ht : ∀ s, t ≠ .string s) : '@' ∉ spelling := by
  rcases readToken_chars h with ⟨text, _, rfl, _⟩ | ⟨s, _, rfl⟩ | ⟨_, hchars⟩
  · exact absurd rfl (ht _)
  · cases s <;> decide
  · intro hmarker
    exact absurd (hchars '@' hmarker) (by decide)

theorem not_mem_of_allBlank {cs : List Char} (h : allBlank cs = true) {c : Char} (hc : isBlank c = false) :
    c ∉ cs := by
  intro hmem
  rw [List.all_eq_true.1 h c hmem] at hc
  cases hc

/-- A token before an `@` that is no string is the same whatever is behind the `@`. -/
theorem Lexeme.next?_marker {front cs rest : List Char} {l : Lexeme}
    (h : next? (front ++ '@' :: cs) = .ok (some (l, rest))) (hl : ∀ s, l.token ≠ .string s) :
    ∃ back, ∀ ds, next? (front ++ '@' :: ds) = .ok (some (l, back ++ '@' :: ds)) := by
  obtain ⟨_, _, _, hgap, _, _, htoken⟩ := next?_eq_some_iff.1 h
  have hmarker : '@' ∉ l.gap ++ l.spelling := by
    rw [List.mem_append, not_or]
    exact ⟨not_mem_of_allBlank hgap (by decide), readToken_of_marker htoken hl⟩
  obtain ⟨back, rfl, rfl⟩ : ∃ back, front = l.gap ++ l.spelling ++ back ∧ rest = back ++ '@' :: cs := by
    rcases List.append_eq_append_iff.1 (next?_eq h).1 with ⟨mid, hfront, hback⟩ | ⟨mid, hfront, hback⟩
    · cases mid with
      | nil => exact ⟨[], by simpa using hfront.symm, by simpa using hback.symm⟩
      | cons c mid =>
          obtain ⟨rfl, _⟩ := List.cons.inj hback
          rw [hfront] at hmarker
          simp at hmarker
    · exact ⟨mid, hfront, hback⟩
  refine ⟨back, fun ds => ?_⟩
  have hlike := next?_like h hgap (.of_barrier (by decide) back cs ds)
  rwa [← List.append_assoc] at hlike

/-- What tells nothing about a line: no token, or a string. -/
def IsSilent (first : Option (Token × List Char)) : Prop := ∀ t rest, first = some (t, rest) → ∃ s, t = .string s

/-- The first token of a text with an `@` in it is before the `@`, whatever is behind, or it is none or a string. -/
theorem firstToken?_marker (front : List Char) :
    (∃ t back, ∀ cs, firstToken? (front ++ '@' :: cs) = some (t, back ++ '@' :: cs)) ∨
      ∀ cs, IsSilent (firstToken? (front ++ '@' :: cs)) := by
  by_cases h : ∀ cs, IsSilent (firstToken? (front ++ '@' :: cs))
  · exact .inr h
  · simp only [IsSilent, not_forall, not_exists] at h
    obtain ⟨cs, t, rest, hfirst, ht⟩ := h
    unfold firstToken? at hfirst
    split at hfirst
    · rename_i l _ hnext
      cases hfirst
      obtain ⟨back, hback⟩ := Lexeme.next?_marker hnext ht
      exact .inl ⟨l.token, back, fun ds => by rw [firstToken?, hback]⟩
    · cases hfirst

theorem trimStart_marker (front cs : List Char) :
    trimStart (front ++ '@' :: cs) = trimStart front ++ '@' :: cs := by
  rw [trimStart, List.dropWhile_append]
  split
  · rename_i hfront
    rw [trimStart, List.isEmpty_iff.1 hfront]
    exact trimStart_cons rfl cs
  · rfl

theorem trim_marker (front cs : List Char) :
    trim (front ++ '@' :: cs) = trimStart front ++ '@' :: trimEnd cs := by
  have hmarker : ∀ d ∈ (trimStart front ++ ['@']).getLast?, isBlank d = false := by
    rw [List.getLast?_concat]
    rintro d ⟨⟩
    rfl
  rw [trim, trimStart_marker, List.append_cons, trimEnd_append hmarker, ← List.append_cons]

theorem startsComment_marker (front cs ds : List Char) :
    startsComment (front ++ '@' :: cs) = startsComment (front ++ '@' :: ds) := by
  match front with
  | [] => rfl
  | [c] => rw [startsComment.eq_def, startsComment.eq_def]; split <;> split <;> simp_all
  | c :: d :: front => rw [startsComment.eq_def, startsComment.eq_def]; split <;> split <;> simp_all

theorem leadsWithOperator_marker (front cs ds : List Char) :
    leadsWithOperator (front ++ '@' :: cs) = leadsWithOperator (front ++ '@' :: ds) := by
  have hsilent {cs : List Char} (h : IsSilent (firstToken? cs)) : leadsWithOperator cs = false := by
    unfold leadsWithOperator
    split
    · rename_i t rest hfirst
      obtain ⟨s, rfl⟩ := h t rest hfirst
      rfl
    · rfl
  rcases firstToken?_marker front with ⟨t, back, hfirst⟩ | hfirst
  · rw [leadsWithOperator, leadsWithOperator, hfirst cs, hfirst ds]
  · rw [hsilent (hfirst cs), hsilent (hfirst ds)]

/-- Whether the token behind `first` makes a statement of it. -/
def Token.isAssigned (first : Token) (second : Option (Token × List Char)) : Bool :=
  match first, second with
  | .ident _, some (second, _) => second.isAssignment
  | _, _ => false

theorem isStatement_eq (cs : List Char) :
    isStatement cs = (startsComment (trimStart cs) ||
      (firstToken? cs).any fun r => r.1.startsStatement || r.1.isAssigned (firstToken? r.2)) := by
  rw [isStatement]
  cases firstToken? cs <;> rfl

theorem isStatement_marker (front cs ds : List Char) :
    isStatement (front ++ '@' :: cs) = isStatement (front ++ '@' :: ds) := by
  have hassigned (t : Token) {o : Option (Token × List Char)} (h : IsSilent o) : t.isAssigned o = false := by
    unfold Token.isAssigned
    split
    · rename_i second rest
      obtain ⟨s, rfl⟩ := h second rest rfl
      rfl
    · rfl
  have hsilent {o : Option (Token × List Char)} (h : IsSilent o) :
      (o.any fun r => r.1.startsStatement || r.1.isAssigned (firstToken? r.2)) = false := by
    cases o with
    | none => rfl
    | some r =>
        obtain ⟨s, hs⟩ := h r.1 r.2 rfl
        simp [hs, Token.startsStatement, Token.isAssigned]
  rw [isStatement_eq, isStatement_eq, trimStart_marker, trimStart_marker, startsComment_marker _ cs ds]
  rcases firstToken?_marker front with ⟨first, back, hfirst⟩ | hfirst
  · rw [hfirst cs, hfirst ds]
    rcases firstToken?_marker back with ⟨second, behind, hsecond⟩ | hsecond
    · cases first <;> simp [hsecond, Token.isAssigned]
    · simp [hassigned first (hsecond _)]
  · rw [hsilent (hfirst cs), hsilent (hfirst ds)]

/-! ## Text lines -/

namespace Reader

/-- The text of a text line: within a block, what is behind the marker that the line begins with, if there is one. -/
def textOf (block : Option Nat) (line : List Char) : List Char :=
  match block, trimStart line with
  | some _, '@' :: ':' :: rest => rest
  | _, _ => line

/-- Whether a line that begins with the opening marker of a block holds a single expression, and so no block. -/
def HoldsExpression (line : List Char) : Prop :=
  ∀ rest, trimStart line = '@' :: '{' :: rest →
    ∃ before after, scanCode 1 none rest = .ok (.closed before after) ∧ isStatement before = false

/-- Whether a line within a block is text: no statement goes on with it, and it is marked or is none itself. -/
structure IsInnerText (b : OpenBlock) (line : List Char) : Prop where
  filled : allBlank line = false
  begins : (b.continued || b.pending && leadsWithOperator (trim line)) = false
  text : (∃ rest, trimStart line = '@' :: ':' :: rest) ∨ isStatement (trim line) = false

/-- Whether the reader takes a line for text. -/
def TakesText (r : Reader) (line : List Char) : Prop :=
  match r.current with
  | none => HoldsExpression line
  | some b => IsInnerText b line

variable {r r' : Reader} {b : OpenBlock} {number m : Nat} {line rest : List Char} {fragments : List Fragment}
  {block : Option Nat}

theorem codeLine_ne_text {cs : List Char} {k : Nat} : codeLine number cs k ≠ some (.text m fragments block) := by
  intro h
  obtain ⟨_, he⟩ := codeLine_eq_some_iff.1 h
  cases he

@[simp]
theorem textOf_none : textOf none line = line := by simp [textOf]

theorem textOf_marked {k : Nat} (h : trimStart line = '@' :: ':' :: rest) : textOf (some k) line = rest := by
  simp only [textOf, h]

theorem textOf_unmarked (h : ∀ rest, trimStart line ≠ '@' :: ':' :: rest) : textOf block line = line := by
  unfold textOf
  split
  · rename_i rest hmarker
    exact absurd hmarker (h rest)
  · rfl

theorem openLine_text_iff (hrest : trimStart line = '@' :: '{' :: rest) :
    r.openLine number line rest = .ok (some (.text m fragments block), r') ↔
      HoldsExpression line ∧ m = number ∧ block = none ∧ Fragment.ofLine line = .ok fragments ∧ r' = r := by
  rw [openLine, bind_eq_ok_iff]
  constructor
  · rintro ⟨scan, hscan, h⟩
    cases scan with
    | opened =>
        simp only [pure, Except.pure, Except.ok.injEq, Prod.mk.injEq] at h
        exact absurd h.1 codeLine_ne_text
    | closed before after =>
        simp only at h
        split at h
        · obtain ⟨_, _, h⟩ := bind_eq_ok_iff.1 h
          simp only [pure, Except.pure, Except.ok.injEq, Prod.mk.injEq] at h
          exact absurd h.1 codeLine_ne_text
        · rename_i hstatement
          rw [Bool.not_eq_true] at hstatement
          obtain ⟨text, htext, h⟩ := bind_eq_ok_iff.1 h
          obtain ⟨fragments, hfragments, rfl⟩ := textLine_eq_ok_iff.1 htext
          cases h
          refine ⟨fun rest' hrest' => ?_, rfl, rfl, hfragments, rfl⟩
          rw [hrest] at hrest'
          cases hrest'
          exact ⟨before, after, hscan, hstatement⟩
  · rintro ⟨hholds, rfl, rfl, hfragments, rfl⟩
    obtain ⟨before, after, hscan, hstatement⟩ := hholds rest hrest
    refine ⟨_, hscan, ?_⟩
    simp only [hstatement, Bool.false_eq_true, if_false]
    exact bind_eq_ok_iff.2 ⟨_, textLine_eq_ok_iff.2 ⟨fragments, hfragments, rfl⟩, rfl⟩

theorem statementLine_ne_text : r.statementLine b number line ≠ .ok (some (.text m fragments block), r') := by
  intro h
  obtain ⟨_, _, _, ho⟩ := statementLine_eq_ok_iff.1 h
  exact codeLine_ne_text ho.symm

theorem innerLine_text_iff : r.innerLine b number line = .ok (some (.text m fragments block), r') ↔
    IsInnerText b line ∧ m = number ∧ block = some b.index ∧ Fragment.ofLine (textOf block line) = .ok fragments ∧
      r' = r := by
  simp only [innerLine]
  constructor
  · intro h
    split at h
    · cases h
    · rename_i hempty
      rw [List.isEmpty_iff, trim_eq_nil_iff, Bool.not_eq_true] at hempty
      split at h
      · exact absurd h statementLine_ne_text
      · rename_i hbegins
        rw [Bool.not_eq_true] at hbegins
        split at h
        · rename_i rest hmarker
          obtain ⟨fragments, hfragments, he, rfl⟩ := mapText_eq_ok_iff.1 h
          cases he
          exact ⟨⟨hempty, hbegins, .inl ⟨rest, hmarker⟩⟩, rfl, rfl, by rwa [textOf_marked hmarker], rfl⟩
        · rename_i hmarker
          split at h
          · split at h
            · cases h
            · exact absurd h statementLine_ne_text
          · rename_i hstatement
            rw [Bool.not_eq_true] at hstatement
            obtain ⟨fragments, hfragments, he, rfl⟩ := mapText_eq_ok_iff.1 h
            cases he
            exact ⟨⟨hempty, hbegins, .inr hstatement⟩, rfl, rfl, by rwa [textOf_unmarked hmarker], rfl⟩
  · rintro ⟨⟨hfilled, hbegins, htext⟩, rfl, rfl, hfragments, rfl⟩
    rw [if_neg (by rw [List.isEmpty_iff, trim_eq_nil_iff, hfilled]; exact Bool.false_ne_true),
      if_neg (by rw [hbegins]; exact Bool.false_ne_true)]
    split
    · rename_i rest hmarker
      rw [textOf_marked hmarker] at hfragments
      exact mapText_eq_ok_iff.2 ⟨fragments, hfragments, rfl, rfl⟩
    · rename_i hmarker
      rw [textOf_unmarked hmarker] at hfragments
      have hstatement : isStatement (trim line) = false := by
        rcases htext with ⟨rest, hrest⟩ | hstatement
        · exact absurd hrest (hmarker rest)
        · exact hstatement
      rw [if_neg (by rw [hstatement]; exact Bool.false_ne_true)]
      exact mapText_eq_ok_iff.2 ⟨fragments, hfragments, rfl, rfl⟩

/-- A line is text if and only if the reader takes it for text and its fragments can be read. -/
theorem step_text_iff : r.step number line = .ok (some (.text m fragments block), r') ↔
    r.TakesText line ∧ m = number ∧ block = r.current.map OpenBlock.index ∧
      Fragment.ofLine (textOf block line) = .ok fragments ∧ r' = r := by
  unfold step TakesText
  cases r.current with
  | some b => exact innerLine_text_iff
  | none =>
      simp only [Option.map_none]
      split
      · rename_i rest hrest
        rw [openLine_text_iff hrest]
        refine and_congr_right fun _ => and_congr_right fun _ => and_congr_right fun hblock => ?_
        rw [hblock, textOf_none]
      · rename_i hrest
        rw [mapText_eq_ok_iff]
        constructor
        · rintro ⟨fragments, hfragments, he, rfl⟩
          cases he
          exact ⟨fun rest h => absurd h (hrest rest), rfl, rfl, hfragments, rfl⟩
        · rintro ⟨_, rfl, rfl, hfragments, rfl⟩
          exact ⟨fragments, hfragments, rfl, rfl⟩

end Reader

end MailTemplate
