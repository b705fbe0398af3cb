import MailTemplate.Proofs.Template.Reading
import MailTemplate.Proofs.Text.Blank

/-!
# Comments and blank lines in a code block

A blank line leaves the reader of a template as it is (`step_blank`). A comment is a code line that
holds nothing, and makes the reader forget that a statement goes on (`step_comment`).
-/

namespace MailTemplate

open Text

theorem Lexeme.next?_of_nothing {cs : List Char}
    (h : allBlank cs = true ∨ startsComment (trimStart cs) = true) : next? cs = .ok none := by
  rw [next?]
  rcases h with hblank | hcomment
  · rw [trimStart_eq_nil_iff.2 hblank]
  · split
    · rfl
    · rename_i c r htrim
      rw [htrim] at hcomment
      rw [if_pos hcomment]

/-- Where there is no token, there are blanks only, or a comment behind them. -/
theorem Lexeme.nothing_of_next? {cs : List Char} (h : next? cs = .ok none) :
    allBlank cs = true ∨ startsComment (trimStart cs) = true := by
  unfold next? at h
  split at h
  · rename_i htrim
    exact .inl (trimStart_eq_nil_iff.1 htrim)
  · rename_i htrim
    split at h
    · rename_i hcomment
      rw [htrim]
      exact .inr hcomment
    · split at h <;> cases h

theorem tokens_of_nothing {cs : List Char} (h : Lexeme.next? cs = .ok none) : tokens cs = .ok [] := by
  rw [tokens, Lexeme.all.eq_def]
  split
  · rename_i e he
    rw [h] at he
    cases he
  · rfl
  · rename_i l rest hl
    rw [h] at hl
    cases hl

theorem scanCode_of_nothing {cs : List Char} (h : Lexeme.next? cs = .ok none) (depth : Nat)
    (last : Option Token) : scanCode depth last cs = .ok (.opened depth last) := by
  rw [scanCode.eq_def]
  split
  · rename_i e he
    rw [h] at he
    cases he
  · rfl
  · rename_i l rest hl
    rw [h] at hl
    cases hl

theorem firstToken?_of_nothing {cs : List Char} (h : Lexeme.next? cs = .ok none) :
    firstToken? cs = none := by
  rw [firstToken?, h]

theorem startsComment_eq_true {cs : List Char} (h : startsComment cs = true) :
    ∃ rest, cs = '/' :: '/' :: rest := by
  unfold startsComment at h
  split at h
  · exact ⟨_, rfl⟩
  · cases h

/-- A comment is one also without the blanks around it. -/
theorem startsComment_trim {cs : List Char} (h : startsComment (trimStart cs) = true) :
    startsComment (trimStart (trim cs)) = true := by
  obtain ⟨rest, hrest⟩ := startsComment_eq_true h
  rw [trim_of_trimStart hrest, trimStart_cons rfl, trimEnd_cons rfl]
  rfl

/-- Whether a line of a code block is read as statements wherever it stands. -/
def readsAsCode (line : List Char) : Bool :=
  isStatement (trim line) && (keywordText? (trim line)).isNone

theorem readsAsCode_of_comment {line : List Char} (h : startsComment (trimStart line) = true) :
    readsAsCode line = true := by
  have hcomment := startsComment_trim h
  have hfirst := firstToken?_of_nothing (Lexeme.next?_of_nothing (.inr hcomment))
  simp [readsAsCode, isStatement, hcomment, keywordText?, hfirst]

theorem not_readsAsCode_of_blank {line : List Char} (h : allBlank line = true) :
    readsAsCode line = false := by
  rw [readsAsCode, trim_eq_nil_iff.2 h]
  rfl

/-- A line that starts with a text marker is no statement. -/
theorem not_readsAsCode_of_marker {line rest : List Char} (h : trimStart line = '@' :: rest) :
    readsAsCode line = false := by
  have hfirst : firstToken? ('@' :: trimEnd rest) = none := by
    rw [firstToken?, Lexeme.next?, trimStart_cons rfl]
    rfl
  have hcomment : startsComment (trimStart ('@' :: trimEnd rest)) = false := by
    rw [trimStart_cons rfl]
    rfl
  rw [readsAsCode, trim_of_trimStart h, isStatement, hfirst, hcomment]
  rfl

namespace Reader

variable {r r' : Reader} {b : OpenBlock} {number : Nat} {line : List Char} {o : Option Line}

theorem step_blank (hr : r.current = some b) (hline : allBlank line = true) :
    r.step number line = .ok (none, r) := by
  have htrim := trim_eq_nil_iff.2 hline
  simp [step, hr, innerLine, htrim]

/-- A line of statements is read as such whether or not the block goes on with one. -/
theorem step_code (hr : r.current = some b) (hline : readsAsCode line = true) :
    r.step number line = r.statementLine b number line := by
  have hblank : allBlank line ≠ true := fun h => by
    rw [not_readsAsCode_of_blank h] at hline
    cases hline
  have hmarker {rest : List Char} : trimStart line ≠ '@' :: rest := fun h => by
    rw [not_readsAsCode_of_marker h] at hline
    cases hline
  simp only [readsAsCode, Bool.and_eq_true, Option.isNone_iff_eq_none] at hline
  rw [step, hr]
  simp only [innerLine]
  rw [if_neg (by rwa [List.isEmpty_iff, trim_eq_nil_iff])]
  split
  · rfl
  · split
    · rename_i h
      exact absurd h hmarker
    · rw [if_pos hline.1, hline.2]

/-- Where no statement goes on, a line that does not read as code is text. -/
theorem step_text (hr : r.current = some b) (hcontinued : b.continued = false)
    (hpending : b.pending = false) (hblank : allBlank line = false) (hline : readsAsCode line = false)
    (h : r.step number line = .ok (o, r')) :
    ∃ fragments, o = some (.text number fragments (some b.index)) ∧ r' = r := by
  have htext {cs : List Char} (h : (textLine number cs (some b.index)).map (·, r) = .ok (o, r')) :
      ∃ fragments, o = some (.text number fragments (some b.index)) ∧ r' = r := by
    obtain ⟨text, htext, h⟩ := map_eq_ok_iff.1 h
    obtain ⟨fragments, _, rfl⟩ := textLine_eq_ok_iff.1 htext
    cases h
    exact ⟨fragments, rfl, rfl⟩
  rw [step, hr] at h
  simp only [innerLine, hcontinued, hpending, Bool.false_and, Bool.or_false] at h
  rw [if_neg (by rw [List.isEmpty_iff, trim_eq_nil_iff, hblank]; exact Bool.false_ne_true),
    if_neg Bool.false_ne_true] at h
  split at h
  · exact htext h
  · split at h
    · rename_i hstatement
      cases hkeyword : keywordText? (trim line) with
      | none => simp [readsAsCode, hstatement, hkeyword] at hline
      | some cause =>
          rw [hkeyword] at h
          cases h
    · exact htext h

theorem step_comment (hr : r.current = some b) (hline : startsComment (trimStart line) = true) :
    r.step number line =
      .ok (some (.code number (String.ofList line) b.index), ⟨r.blocks, some (afterCode b b.depth none)⟩) := by
  have hblank : allBlank line = false := by
    rw [← Bool.not_eq_true, ← trimStart_eq_nil_iff]
    obtain ⟨rest, hrest⟩ := startsComment_eq_true hline
    simp [hrest]
  rw [step_code hr (readsAsCode_of_comment hline), statementLine,
    scanCode_of_nothing (Lexeme.next?_of_nothing (.inr hline))]
  simp [bind, Except.bind, pure, Except.pure, codeLine, hblank]

/-! ## Lines behind a comment -/

theorem run_blank (hr : r.current = some b) {lines : List (List Char)}
    (hlines : ∀ line ∈ lines, allBlank line = true) : r.run number lines = .ok ([], r) := by
  induction lines generalizing number with
  | nil => rfl
  | cons line lines ih =>
      have hmore : ∀ l ∈ lines, allBlank l = true := fun l hl => hlines l (List.mem_cons_of_mem line hl)
      refine run_cons_eq_ok_iff.2 ⟨none, r, [], step_blank hr ?_, ih hmore, rfl⟩
      exact hlines line List.mem_cons_self

end Reader

end MailTemplate
