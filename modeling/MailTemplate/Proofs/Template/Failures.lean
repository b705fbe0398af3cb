import MailTemplate.Proofs.Template.Scan

/-!
# How reading a template fails

Reading tokens, fragments and lines never fails because a statement or a block has no end
(`Reader.run_failsOnly`); only the reader of statements does, and the end of the source.
-/

namespace MailTemplate

open Text

/-- The cause is one that a single line can have, without the lines behind it. -/
def SyntaxCause.InLine : SyntaxCause → Prop
  | unexpectedEnd _ | unterminatedBlock _ => False
  | textInCodeBlock _ cause => cause.InLine
  | _ => True

theorem readNumber_failsOnly (cs : List Char) : FailsOnly SyntaxCause.InLine (readNumber cs) := by
  simp only [readNumber]
  split
  · exact failsOnly_error.2 trivial
  · exact failsOnly_ok

theorem readToken_failsOnly (c : Char) (cs : List Char) :
    FailsOnly SyntaxCause.InLine (readToken c cs) := by
  unfold readToken
  split
  · split
    · exact failsOnly_ok
    · exact failsOnly_error.2 trivial
  · split
    · exact readNumber_failsOnly _
    · split
      · exact failsOnly_ok
      · split
        · exact failsOnly_ok
        · exact failsOnly_error.2 trivial

theorem Lexeme.next?_failsOnly (cs : List Char) : FailsOnly SyntaxCause.InLine (next? cs) := by
  unfold next?
  split
  · exact failsOnly_ok
  · split
    · exact failsOnly_ok
    · split
      · exact failsOnly_ok
      · rename_i e he
        exact failsOnly_error.2 (readToken_failsOnly _ _ e he)

theorem Lexeme.all_failsOnly (cs : List Char) : FailsOnly SyntaxCause.InLine (all cs) := by
  induction cs using Lexeme.induction with
  | step cs ih =>
      rw [all.eq_def]
      split
      · rename_i e he
        exact failsOnly_error.2 (next?_failsOnly cs e he)
      · exact failsOnly_ok
      · rename_i l rest hnext
        split
        · rename_i e he
          exact failsOnly_error.2 (ih l rest hnext e he)
        · exact failsOnly_ok

theorem tokens_failsOnly (cs : List Char) : FailsOnly SyntaxCause.InLine (tokens cs) :=
  (Lexeme.all_failsOnly cs).map

theorem scanCode_failsOnly (depth : Nat) (last : Option Token) (cs : List Char) :
    FailsOnly SyntaxCause.InLine (scanCode depth last cs) := by
  induction cs using Lexeme.induction generalizing depth last with
  | step cs ih =>
      cases hnext : Lexeme.next? cs with
      | error e =>
          rw [scanCode_of_error hnext]
          exact failsOnly_error.2 (Lexeme.next?_failsOnly cs e hnext)
      | ok next =>
          cases next with
          | none =>
              rw [scanCode_of_nothing hnext]
              exact failsOnly_ok
          | some next =>
              obtain ⟨l, rest⟩ := next
              rw [scanCode_next? hnext]
              split
              · exact failsOnly_ok
              · exact (ih l rest hnext _ _).map

theorem Fragment.ofLine_failsOnly (cs : List Char) : FailsOnly SyntaxCause.InLine (ofLine cs) := by
  unfold ofLine
  generalize [] = reversed
  fun_induction readFrom reversed cs with
  | case1 => exact failsOnly_ok
  | case2 _ _ ih => exact ih
  | case3 => exact failsOnly_error.2 trivial
  | case4 => exact failsOnly_error.2 trivial
  | case5 =>
      rename_i e he ih
      rw [he] at ih
      exact ih
  | case6 => exact failsOnly_ok
  | case7 =>
      rename_i e he ih
      rw [he] at ih
      exact ih
  | case8 => exact failsOnly_ok
  | case9 | case10 => assumption

namespace Reader

variable {r : Reader} {b : OpenBlock} {number : Nat} {line : List Char}

theorem textLine_failsOnly {cs : List Char} {block : Option Nat} :
    FailsOnly SyntaxCause.InLine (textLine number cs block) :=
  (Fragment.ofLine_failsOnly cs).map

theorem checkTrailing_failsOnly (cs : List Char) : FailsOnly SyntaxCause.InLine (checkTrailing cs) := by
  simp only [checkTrailing]
  split
  · exact failsOnly_ok
  · exact failsOnly_error.2 trivial

theorem keywordText?_inLine {cs : List Char} {cause : SyntaxCause} (h : keywordText? cs = some cause) :
    cause.InLine := by
  simp only [keywordText?] at h
  split at h
  · cases h
  · split at h
    · obtain ⟨cause, hcause, rfl⟩ := Option.map_eq_some_iff.1 h
      change cause.InLine
      split at hcause
      · cases hcause
      · split at hcause
        · cases hcause
        · cases hcause
          exact tokens_failsOnly cs _ ‹_›
      · cases hcause
        trivial
      · cases hcause
        exact Lexeme.next?_failsOnly _ _ ‹_›
    · cases h

theorem statementLine_failsOnly : FailsOnly SyntaxCause.InLine (r.statementLine b number line) := by
  refine (scanCode_failsOnly _ _ _).bind fun scan _ => ?_
  cases scan with
  | opened => exact failsOnly_pure
  | closed _ after => exact (checkTrailing_failsOnly after).bind fun _ _ => failsOnly_pure

theorem openLine_failsOnly {rest : List Char} :
    FailsOnly SyntaxCause.InLine (r.openLine number line rest) := by
  refine (scanCode_failsOnly _ _ _).bind fun scan _ => ?_
  cases scan with
  | opened => exact failsOnly_pure
  | closed _ after =>
      simp only
      split
      · exact (checkTrailing_failsOnly after).bind fun _ _ => failsOnly_pure
      · exact textLine_failsOnly.bind fun _ _ => failsOnly_pure

theorem innerLine_failsOnly : FailsOnly SyntaxCause.InLine (r.innerLine b number line) := by
  simp only [innerLine]
  split
  · exact failsOnly_ok
  · split
    · exact statementLine_failsOnly
    · split
      · exact textLine_failsOnly.map
      · split
        · split
          · exact failsOnly_error.2 (keywordText?_inLine ‹_›)
          · exact statementLine_failsOnly
        · exact textLine_failsOnly.map

theorem step_failsOnly : FailsOnly SyntaxCause.InLine (r.step number line) := by
  unfold step
  split
  · exact innerLine_failsOnly
  · split
    · exact openLine_failsOnly
    · exact textLine_failsOnly.map

theorem run_failsOnly {lines : List (List Char)} : FailsOnly (·.cause.InLine) (r.run number lines) := by
  induction lines generalizing r number with
  | nil => exact failsOnly_ok
  | cons line lines ih =>
      rw [run]
      split
      · rename_i cause hcause
        exact failsOnly_error.2 (step_failsOnly cause hcause)
      · split
        · rename_i e he
          exact failsOnly_error.2 (ih e he)
        · exact failsOnly_ok

end Reader

/-- Reading a template fails because of one line, or because of a block that is left open. -/
theorem Template.ofSource_failsOnly (source : String) :
    FailsOnly (fun e => e.cause.InLine ∨ ∃ n, e.cause = .unterminatedBlock n) (Template.ofSource source) := by
  unfold Template.ofSource
  simp only
  split
  · rename_i e he
    exact failsOnly_error.2 (.inl (Reader.run_failsOnly e he))
  · exact failsOnly_error.2 (.inr ⟨_, rfl⟩)
  · exact failsOnly_ok

end MailTemplate
