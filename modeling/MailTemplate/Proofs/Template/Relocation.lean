import MailTemplate.Proofs.Relocation
import MailTemplate.Proofs.Template.Failures
import MailTemplate.Proofs.Text.Lines

/-!
# Reading on other lines

Behind other lines and other blocks a line is read as it is in front (`Reader.step_relocate`), and a run gives
the same lines, or fails for the same cause (`Reader.run_relocate`). So the lines of two sources put together
are the lines of the first and those of the second (`Template.ofSource_behind`).
-/

namespace MailTemplate

open Text

variable (f : Nat → Nat) (k : Nat)

/-- The line with another number, in a block that has `k` more blocks before it. -/
def Line.relocate : Line → Line
  | text number fragments block => text (f number) fragments (block.map (k + ·))
  | code number cs block => code (f number) cs (k + block)

def OpenBlock.relocate (b : OpenBlock) : OpenBlock :=
  { b with openedAt := f b.openedAt, index := k + b.index }

/-- The cause that a single line can have names no line. -/
theorem SyntaxCause.InLine.renumber_eq {f : Nat → Nat} {cause : SyntaxCause} (h : cause.InLine) :
    cause.renumber f = cause := by
  induction cause with
  | unterminatedBlock => cases h
  | textInCodeBlock text cause ih => rw [renumber, ih h]
  | _ => rfl

namespace Reader

def relocate (r : Reader) : Reader := ⟨k + r.blocks, r.current.map (OpenBlock.relocate f k)⟩

/-- What a step gives, on other lines. -/
def relocateStep (s : Option Line × Reader) : Option Line × Reader :=
  (s.1.map (Line.relocate f k), s.2.relocate f k)

variable {f k} {r : Reader} {b : OpenBlock} {number : Nat} {line : List Char}

theorem textLine_relocate (cs : List Char) (block : Option Nat) :
    textLine (f number) cs (block.map (k + ·)) =
      (textLine number cs block).map (Option.map (Line.relocate f k)) := by
  unfold textLine
  cases Fragment.ofLine cs <;> rfl

theorem codeLine_relocate (cs : List Char) (block : Nat) :
    codeLine (f number) cs (k + block) = (codeLine number cs block).map (Line.relocate f k) := by
  unfold codeLine
  split <;> rfl

theorem mapText_relocate (cs : List Char) (block : Option Nat) :
    (textLine (f number) cs (block.map (k + ·))).map (·, r.relocate f k) =
      ((textLine number cs block).map (·, r)).map (relocateStep f k) := by
  rw [textLine_relocate]
  cases textLine number cs block <;> rfl

theorem openLine_relocate (rest : List Char) :
    (r.relocate f k).openLine (f number) line rest = (r.openLine number line rest).map (relocateStep f k) := by
  simp only [openLine]
  cases scanCode 1 none rest with
  | error e => rfl
  | ok scan =>
      cases scan with
      | opened depth last =>
          simp only [relocate, codeLine_relocate]
          rfl
      | closed before after =>
          change (if isStatement before = true then _ else _) =
            Except.map _ (if isStatement before = true then _ else _)
          split
          · simp only [relocate, codeLine_relocate]
            cases checkTrailing after <;> rfl
          · have htext : textLine (f number) line none = (textLine number line none).map _ :=
              textLine_relocate (k := k) line none
            rw [htext]
            cases textLine number line none <;> rfl

theorem statementLine_relocate :
    (r.relocate f k).statementLine (b.relocate f k) (f number) line =
      (r.statementLine b number line).map (relocateStep f k) := by
  simp only [statementLine, OpenBlock.relocate]
  cases scanCode b.depth none line with
  | error e => rfl
  | ok scan =>
      cases scan with
      | opened depth last =>
          simp only [relocate, codeLine_relocate]
          rfl
      | closed before after =>
          simp only [relocate, codeLine_relocate]
          change (checkTrailing after >>= _) = Except.map _ (checkTrailing after >>= _)
          cases checkTrailing after <;> rfl

theorem innerLine_relocate :
    (r.relocate f k).innerLine (b.relocate f k) (f number) line =
      (r.innerLine b number line).map (relocateStep f k) := by
  have hcontinued : (b.relocate f k).continued = b.continued := rfl
  have hpending : (b.relocate f k).pending = b.pending := rfl
  have htext (cs : List Char) : (textLine (f number) cs (some (k + b.index))).map (·, r.relocate f k) = _ :=
    mapText_relocate cs (some b.index)
  simp only [innerLine, hcontinued, hpending]
  by_cases hempty : (trim line).isEmpty = true
  · rw [if_pos hempty, if_pos hempty]
    rfl
  rw [if_neg hempty, if_neg hempty]
  by_cases hgoesOn : (b.continued || b.pending && leadsWithOperator (trim line)) = true
  · rw [if_pos hgoesOn, if_pos hgoesOn]
    exact statementLine_relocate
  rw [if_neg hgoesOn, if_neg hgoesOn]
  split
  · exact htext _
  · by_cases hstatement : isStatement (trim line) = true
    · rw [if_pos hstatement, if_pos hstatement]
      cases keywordText? (trim line) with
      | some cause => rfl
      | none => exact statementLine_relocate
    · rw [if_neg hstatement, if_neg hstatement]
      exact htext line

/-- A line is read in the same way behind other lines and other blocks. -/
theorem step_relocate :
    (r.relocate f k).step (f number) line = (r.step number line).map (relocateStep f k) := by
  obtain ⟨blocks, current⟩ := r
  cases current with
  | some b => exact innerLine_relocate
  | none =>
      simp only [step, relocate, Option.map_none]
      split
      · exact openLine_relocate (r := ⟨blocks, none⟩) _
      · exact mapText_relocate (r := ⟨blocks, none⟩) line none

/-- A run over lines whose numbers stay neighbours. -/
theorem run_relocate (hf : ∀ n, number ≤ n → f (n + 1) = f n + 1) (lines : List (List Char)) :
    (r.relocate f k).run (f number) lines =
      MailTemplate.relocate f (fun s => (s.1.map (Line.relocate f k), s.2.relocate f k)) (r.run number lines) := by
  induction lines generalizing r number with
  | nil => rfl
  | cons line lines ih =>
      rw [run, run, step_relocate]
      cases hstep : r.step number line with
      | error cause =>
          have hcause : cause.renumber f = cause := (step_failsOnly cause hstep).renumber_eq
          simp only [Except.map, MailTemplate.relocate, SyntaxError.renumber, hcause]
      | ok s =>
          obtain ⟨o, mid⟩ := s
          have hmore := ih (r := mid) (fun n hn => hf n (Nat.le_of_succ_le hn))
          rw [hf number (Nat.le_refl _)] at hmore
          simp only [Except.map, relocateStep, hmore]
          cases mid.run (number + 1) lines with
          | error e => rfl
          | ok s =>
              obtain ⟨ls, r'⟩ := s
              cases o <;> rfl

end Reader

/-! ## In the same blocks -/

def Line.renumber : Line → Line
  | text number fragments block => text (f number) fragments block
  | code number cs block => code (f number) cs block

def OpenBlock.renumber (b : OpenBlock) : OpenBlock := { b with openedAt := f b.openedAt }

def Reader.renumber (r : Reader) : Reader := ⟨r.blocks, r.current.map (OpenBlock.renumber f)⟩

theorem Line.relocate_zero : relocate f 0 = renumber f := by
  funext l
  cases l <;> simp [relocate, renumber]

theorem OpenBlock.relocate_zero : relocate f 0 = renumber f := by
  funext b
  simp [relocate, renumber]

theorem Reader.relocate_zero : relocate f 0 = renumber f := by
  funext r
  rw [relocate, OpenBlock.relocate_zero, Nat.zero_add]
  rfl

theorem Reader.run_renumber {number : Nat} (hf : ∀ n, number ≤ n → f (n + 1) = f n + 1)
    {lines : List (List Char)} {ls : List Line} {r r' : Reader} (h : r.run number lines = .ok (ls, r')) :
    (r.renumber f).run (f number) lines = .ok (ls.map (Line.renumber f), r'.renumber f) := by
  rw [← relocate_zero, ← Line.relocate_zero, run_relocate hf, h]
  rfl

/-! ## Sources put together -/

/-- How many code blocks begin in a source. -/
def blocksIn (source : String) : Nat :=
  match Reader.start.run 1 (linesOf source) with
  | .ok (_, r) => r.blocks
  | .error _ => 0

namespace Template

variable {a : String} {t : Template}

/-- The template `t` of a source with the template `u` of another behind it, which begins behind `blocks`
blocks. The line endings are those of both sources together. -/
def append (t u : Template) (blocks : Nat) (ending : LineEnding) : Template :=
  ⟨t.lines ++ u.lines.map (Line.relocate (t.lineCount + ·) blocks), t.lineCount + u.lineCount, ending⟩

/-- What stands behind a source is read as on its own, on later lines and behind the blocks of the source. -/
theorem ofSource_behind (ht : ofSource a = .ok t) (b : String) :
    ofSource (a ++ "\n" ++ b) =
      relocate (t.lineCount + ·) (t.append · (blocksIn a) (LineEnding.ofText (a ++ "\n" ++ b))) (ofSource b) := by
  obtain ⟨blocks, hrun, hcount, _⟩ := Reader.ofSource_eq_ok_iff.1 ht
  have hblocks : blocksIn a = blocks := by simp only [blocksIn, hrun]
  have hback : Reader.run ⟨blocks, none⟩ (t.lineCount + 1) (linesOf b) = _ :=
    Reader.run_relocate (r := Reader.start) (k := blocks) (f := (t.lineCount + ·)) (fun n _ => rfl) (linesOf b)
  have hboth : Reader.start.run 1 (linesOf a ++ linesOf b) = _ := Reader.run_append _ _ _ _
  simp only [hrun, ← hcount, Nat.add_comm 1, bind, Except.bind, hback] at hboth
  rw [ofSource, ofSource, linesOf_append, List.length_append, ← hcount, hblocks]
  simp only [hboth]
  cases Reader.start.run 1 (linesOf b) with
  | error e => rfl
  | ok s =>
      obtain ⟨ls, n, current⟩ := s
      cases current <;> rfl

/-- An error in a source, other than a block left open at its end, is an error whatever stands behind. -/
theorem ofSource_concat_error {e : SyntaxError} (he : ofSource a = .error e)
    (hopen : ∀ n, e.cause ≠ .unterminatedBlock n) (b : String) : ofSource (a ++ "\n" ++ b) = .error e := by
  have hrun : Reader.start.run 1 (linesOf a) = .error e := by
    rw [ofSource] at he
    split at he
    · cases he
      assumption
    · cases he
      exact absurd rfl (hopen _)
    · cases he
  have hboth : Reader.start.run 1 (linesOf a ++ linesOf b) = _ := Reader.run_append _ _ _ _
  rw [hrun] at hboth
  rw [ofSource, linesOf_append]
  simp only [hboth]
  rfl

end Template

end MailTemplate
