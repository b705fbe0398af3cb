import MailTemplate.Proofs.Compile.Insertion
import MailTemplate.Proofs.Text.Lines
import Mathlib

/-!
# Comments in code blocks

A blank line changes nothing in a code block. A comment changes nothing where no statement is left
open, or where the next line reads as code by itself; anywhere else the template is not compiled
any more (`ofSource_insert`).
-/

namespace MailTemplate

open Text

/-- The number of a line when one more line comes in behind the line `k`. -/
def shiftAfter (k number : Nat) : Nat := if number ≤ k then number else number + 1

def Program.renumber (f : Nat → Nat) (p : Program) : Program := ⟨renumberAll f p.instructions, p.ending⟩

def firstFilled? (lines : List (List Char)) : Option (List Char) := lines.find? fun l => !allBlank l

/-- The lines `after` go on in the block `b` as before when the line, which is blank or a comment,
comes in. -/
def Harmless (b : OpenBlock) (line : List Char) (after : List (List Char)) : Prop :=
  allBlank line = true ∨ b.pending = false ∨ ∃ next ∈ firstFilled? after, readsAsCode next = true

theorem firstFilled?_eq_some {lines : List (List Char)} {next : List Char}
    (h : firstFilled? lines = some next) :
    allBlank next = false ∧ ∃ blanks rest, lines = blanks ++ next :: rest ∧
      ∀ l ∈ blanks, allBlank l = true := by
  obtain ⟨hnext, blanks, rest, rfl, hblanks⟩ := List.find?_eq_some_iff_append.1 h
  exact ⟨by simpa using hnext, blanks, rest, rfl, by simpa using hblanks⟩

/-! ## The reader behind a comment -/

namespace Reader

variable {r r' : Reader} {b : OpenBlock} {number : Nat} {ls : List Line}

/-- The reader when a comment is the last thing that it read in its block. -/
def interrupted (r : Reader) (b : OpenBlock) : Reader := ⟨r.blocks, some (afterCode b b.depth none)⟩

theorem interrupted_eq (hr : r.current = some b) (hcontinued : b.continued = false)
    (hpending : b.pending = false) : r.interrupted b = r := by
  obtain ⟨blocks, current⟩ := r
  obtain ⟨depth, openedAt, index, continued, pending⟩ := b
  cases hcontinued
  cases hpending
  cases hr
  rfl

/-- A comment makes no difference to lines of which the first reads as code by itself. -/
theorem run_interrupted (hr : r.current = some b) {lines : List (List Char)} {next : List Char}
    (hnext : firstFilled? lines = some next) (hcode : readsAsCode next = true)
    (h : r.run number lines = .ok (ls, r')) : (r.interrupted b).run number lines = .ok (ls, r') := by
  obtain ⟨_, blanks, rest, rfl, hblanks⟩ := firstFilled?_eq_some hnext
  obtain ⟨before, mid, after, hbefore, hafter, rfl⟩ := run_append_eq_ok_iff.1 h
  rw [run_blank hr hblanks] at hbefore
  cases hbefore
  obtain ⟨o, mid, more, ho, hmore, rfl⟩ := run_cons_eq_ok_iff.1 hafter
  rw [step_code hr hcode] at ho
  have ho' : (r.interrupted b).step (number + blanks.length) next = .ok (o, mid) := by
    rw [step_code rfl hcode, ← ho]
    rfl
  exact run_append_eq_ok_iff.2 ⟨[], _, _, run_blank rfl hblanks,
    run_cons_eq_ok_iff.2 ⟨o, mid, more, ho', hmore, rfl⟩, rfl⟩

/-- A comment makes the first line behind it text, unless that line reads as code by itself. -/
theorem run_interrupted_text {lines : List (List Char)} {next : List Char}
    (hnext : firstFilled? lines = some next) (hcode : readsAsCode next = false)
    (h : (r.interrupted b).run number lines = .ok (ls, r')) :
    ∃ m fragments more, ls = .text m fragments (some b.index) :: more := by
  obtain ⟨hfilled, blanks, rest, rfl, hblanks⟩ := firstFilled?_eq_some hnext
  obtain ⟨before, mid, after, hbefore, hafter, rfl⟩ := run_append_eq_ok_iff.1 h
  rw [run_blank rfl hblanks] at hbefore
  cases hbefore
  obtain ⟨o, mid, more, ho, _, rfl⟩ := run_cons_eq_ok_iff.1 hafter
  obtain ⟨fragments, rfl, _⟩ := step_text (b := afterCode b b.depth none) rfl rfl rfl hfilled hcode ho
  exact ⟨_, fragments, more, rfl⟩

end Reader

/-! ## Lines behind the new line -/

section Shift

variable {k : Nat}

theorem shiftAfter_of_le {number : Nat} (h : number ≤ k) : shiftAfter k number = number := if_pos h

theorem shiftAfter_of_lt {number : Nat} (h : k < number) : shiftAfter k number = number + 1 :=
  if_neg (Nat.not_le_of_lt h)

theorem shiftAfter_beq {m : Nat} (hm : k < m) (number : Nat) :
    (shiftAfter k number == m + 1) = (number == m) := by
  rw [Bool.eq_iff_iff, beq_iff_eq, beq_iff_eq, shiftAfter]
  split <;> omega

theorem renumber_front {ls : List Line} (h : ∀ l ∈ ls, l.number ≤ k) :
    ls.map (Line.renumber (shiftAfter k)) = ls := by
  refine (List.map_congr_left fun l hl => ?_).trans (List.map_id ls)
  cases l with
  | text => exact congrArg (Line.text · _ _) (shiftAfter_of_le (h _ hl))
  | code => exact congrArg (Line.code · _ _) (shiftAfter_of_le (h _ hl))

theorem Reader.run_shift {r r' : Reader} {lines : List (List Char)} {ls : List Line}
    (hopened : ∀ b ∈ r.current, b.openedAt ≤ k) (hr' : r'.current = none)
    (h : r.run (k + 1) lines = .ok (ls, r')) :
    r.run (k + 1 + 1) lines = .ok (ls.map (Line.renumber (shiftAfter k)), r') := by
  have hf (n : Nat) (hn : k + 1 ≤ n) : shiftAfter k (n + 1) = shiftAfter k n + 1 := by
    rw [shiftAfter_of_lt hn, shiftAfter_of_lt (Nat.lt_succ_of_lt hn)]
  have hrun := run_renumber (shiftAfter k) hf h
  have hr : r.renumber (shiftAfter k) = r := by
    obtain ⟨blocks, current⟩ := r
    cases current with
    | none => rfl
    | some b =>
        have := shiftAfter_of_le (hopened b rfl)
        simp [renumber, OpenBlock.renumber, this]
  have hend : r'.renumber (shiftAfter k) = r' := by
    obtain ⟨blocks, current⟩ := r'
    cases hr'
    rfl
  rwa [hr, hend, shiftAfter_of_lt (Nat.lt_succ_self k)] at hrun

end Shift

/-! ## A template with one more line -/

section Insert

variable {before line after : String} {e : LineEnding} {ls : List Line} {r : Reader} {b : OpenBlock}

theorem pieces_of_nothing {number k n : Nat} {cs : List Char} (h : Lexeme.next? cs = .ok none) :
    (Line.code number (String.ofList cs) k).pieces n = .ok [] := by
  rw [Line.pieces, Piece.ofCode, String.toList_ofList, tokens_of_nothing h]
  rfl

/-- A template is read in two parts, before and behind a line feed. -/
theorem ofSource_append {t : Template} (hrun : Reader.start.run 1 (linesOf before) = .ok (ls, r))
    (ht : Template.ofSource (before ++ "\n" ++ after) = .ok t) :
    ∃ back blocks, t.lines = ls ++ back ∧
      r.run ((linesOf before).length + 1) (linesOf after) = .ok (back, ⟨blocks, none⟩) ∧
      t.lineCount = (linesOf before).length + (linesOf after).length := by
  obtain ⟨blocks, hlines, hcount, _⟩ := Reader.ofSource_eq_ok_iff.1 ht
  rw [linesOf_append] at hlines hcount
  obtain ⟨front, mid, back, hfront, hback, hsplit⟩ := Reader.run_append_eq_ok_iff.1 hlines
  rw [hrun] at hfront
  cases hfront
  rw [Nat.add_comm] at hback
  exact ⟨back, blocks, hsplit, hback, by rw [hcount, List.length_append]⟩

/-- What is read with the line in place, if the reader reads the lines behind as before. -/
theorem run_insert {o : Option Line} {r' : Reader} {back : List Line} {blocks : Nat}
    (hrun : Reader.start.run 1 (linesOf before) = .ok (ls, r))
    (hback : r.run ((linesOf before).length + 1) (linesOf after) = .ok (back, ⟨blocks, none⟩))
    (hfeed : '\n' ∉ line.toList) (hreturn : '\r' ∉ line.toList)
    (hline : r.step ((linesOf before).length + 1) line.toList = .ok (o, r'))
    (hsame : ∀ number back end', r.run number (linesOf after) = .ok (back, end') →
      r'.run number (linesOf after) = .ok (back, end')) :
    Reader.start.run 1 (linesOf (before ++ "\n" ++ (line ++ e.text ++ after))) =
      .ok (ls ++ (o.toList ++ back.map (Line.renumber (shiftAfter (linesOf before).length))),
        ⟨blocks, none⟩) := by
  have hopened : ∀ b ∈ r.current, b.openedAt ≤ (linesOf before).length := fun b hb => by
    have := (Reader.run_reached hrun).openedAt b hb
    omega
  rw [linesOf_insert hfeed hreturn]
  refine Reader.run_append_eq_ok_iff.2 ⟨_, _, _, hrun, ?_, rfl⟩
  rw [Nat.add_comm]
  refine Reader.run_cons_eq_ok_iff.2 ⟨_, _, _, hline, ?_, rfl⟩
  exact hsame _ _ _ (Reader.run_shift hopened rfl hback)

/-- The lines have their form with a line in between that holds no pieces of the block. -/
theorem linesForm_insert {o : Option Line} {end' : Reader} {back : List Line} {m : Nat}
    {is : List Instruction} (hrun : Reader.start.run 1 (linesOf before) = .ok (ls, r))
    (hr : r.current = some b)
    (hback : r.run ((linesOf before).length + 1) (linesOf after) = .ok (back, end'))
    (ho : ∀ c ∈ o, c.block = some b.index ∧ ∀ n, c.pieces n = .ok [])
    (hm : (linesOf before).length < m) (h : LinesForm m (ls ++ back) is) :
    LinesForm (m + 1)
      (ls ++ (o.toList ++ back.map (Line.renumber (shiftAfter (linesOf before).length))))
      (renumberAll (shiftAfter (linesOf before).length) is) := by
  have hreached := Reader.run_reached hrun
  have hindex := hreached.index b hr
  have hnumbers : ∀ l ∈ ls, l.number ≤ (linesOf before).length := fun l hl => by
    have := (Reader.run_ordered hrun).2 l hl
    omega
  have form := h.renumber fun l _ => shiftAfter_beq hm l.number
  rw [List.map_append, renumber_front hnumbers] at form
  cases o with
  | none => exact form
  | some c =>
      obtain ⟨hblock, hpieces⟩ := ho c rfl
      refine form.insert hblock (hpieces _) ?_ ?_
      · intro l hl j hj
        have := hreached.blocks l hl j hj
        omega
      · intro l hl j hj
        obtain ⟨l', hl', rfl⟩ := List.mem_map.1 hl
        rw [Line.block_renumber] at hj
        exact Reader.run_since hr (by omega) hback l' hl' j hj

/-- With the line in place the program is the same, if the reader reads the lines behind as before. -/
theorem ofSource_insert_of_run {p : Program} {o : Option Line} {r' : Reader}
    (hp : Program.ofSource (before ++ "\n" ++ after) = .ok p)
    (hrun : Reader.start.run 1 (linesOf before) = .ok (ls, r)) (hr : r.current = some b)
    (hfeed : '\n' ∉ line.toList) (hreturn : '\r' ∉ line.toList) (he : e = .crlf → p.ending = .crlf)
    (hline : r.step ((linesOf before).length + 1) line.toList = .ok (o, r'))
    (ho : ∀ c ∈ o, c.block = some b.index ∧ ∀ n, c.pieces n = .ok [])
    (hsame : ∀ number back end', r.run number (linesOf after) = .ok (back, end') →
      r'.run number (linesOf after) = .ok (back, end')) :
    Program.ofSource (before ++ "\n" ++ (line ++ e.text ++ after)) =
      .ok (p.renumber (shiftAfter (linesOf before).length)) := by
  obtain ⟨t, ht, form, hending⟩ := ofSource_eq_ok_iff.1 hp
  obtain ⟨back, blocks, hlines, hback, hcount⟩ := ofSource_append hrun ht
  obtain ⟨_, _, _, hend⟩ := Reader.ofSource_eq_ok_iff.1 ht
  have hafter : 0 < (linesOf after).length := by
    rw [linesOf, List.length_map]
    exact List.length_pos_iff.2 (splitLines_ne_nil _)
  rw [hlines] at form
  refine ofSource_eq_ok_iff.2 ⟨⟨_, t.lineCount + 1, t.ending⟩,
    Reader.ofSource_eq_ok_iff.2 ⟨blocks, run_insert hrun hback hfeed hreturn hline hsame, ?_, ?_⟩,
    linesForm_insert hrun hr hback ho (by omega) form, hending⟩
  · rw [linesOf_insert hfeed hreturn, List.length_append, List.length_cons, hcount]
    rfl
  · rw [hend]
    exact (LineEnding.ofText_insert hfeed hreturn fun hcrlf => by rw [← hend, ← hending, he hcrlf]).symm

theorem ofSource_insert_of_harmless {p : Program}
    (hp : Program.ofSource (before ++ "\n" ++ after) = .ok p)
    (hrun : Reader.start.run 1 (linesOf before) = .ok (ls, r)) (hr : r.current = some b)
    (hfeed : '\n' ∉ line.toList) (hreturn : '\r' ∉ line.toList) (he : e = .crlf → p.ending = .crlf)
    (hline : allBlank line.toList = true ∨ startsComment (trimStart line.toList) = true)
    (h : Harmless b line.toList (linesOf after)) :
    Program.ofSource (before ++ "\n" ++ (line ++ e.text ++ after)) =
      .ok (p.renumber (shiftAfter (linesOf before).length)) := by
  rcases hline with hblank | hcomment
  · exact ofSource_insert_of_run hp hrun hr hfeed hreturn he (Reader.step_blank hr hblank) nofun
      fun _ _ _ h => h
  · refine ofSource_insert_of_run hp hrun hr hfeed hreturn he (Reader.step_comment hr hcomment) ?_ ?_
    · rintro _ ⟨⟩
      exact ⟨rfl, fun _ => pieces_of_nothing (Lexeme.next?_of_nothing (.inr hcomment))⟩
    · intro number back end' hback
      rcases h with hblank | hpending | ⟨next, hnext, hcode⟩
      · obtain ⟨rest, hrest⟩ := startsComment_eq_true hcomment
        rw [trimStart_eq_nil_iff.2 hblank] at hrest
        cases hrest
      · have hcontinued : b.continued = false := by
          rw [← Bool.not_eq_true]
          intro hcontinued
          rw [(Reader.run_reached hrun).continued b hr hcontinued] at hpending
          cases hpending
        have hsame := Reader.interrupted_eq hr hcontinued hpending
        rw [Reader.interrupted] at hsame
        rwa [hsame]
      · exact Reader.run_interrupted hr hnext hcode hback

/-- Where a statement is left open and the line behind does not read as code by itself, that line is
text behind a comment, and the statement cannot go on with text. -/
theorem ofSource_insert_ne_ok {next : List Char}
    (hrun : Reader.start.run 1 (linesOf before) = .ok (ls, r)) (hr : r.current = some b)
    (hfeed : '\n' ∉ line.toList) (hreturn : '\r' ∉ line.toList)
    (hcomment : startsComment (trimStart line.toList) = true) (hpending : b.pending = true)
    (hnext : firstFilled? (linesOf after) = some next) (hcode : readsAsCode next = false)
    (q : Program) : Program.ofSource (before ++ "\n" ++ (line ++ e.text ++ after)) ≠ .ok q := by
  intro hq
  obtain ⟨t, ht, form, _⟩ := ofSource_eq_ok_iff.1 hq
  obtain ⟨blocks, hlines, _⟩ := Reader.ofSource_eq_ok_iff.1 ht
  rw [linesOf_insert hfeed hreturn] at hlines
  obtain ⟨front, mid, more, hfront, hmore, hsplit⟩ := Reader.run_append_eq_ok_iff.1 hlines
  rw [hrun] at hfront
  cases hfront
  obtain ⟨o, _, rest, ho, hrest, rfl⟩ := Reader.run_cons_eq_ok_iff.1 hmore
  rw [Reader.step_comment hr hcomment] at ho
  cases ho
  obtain ⟨m, fragments, rest, rfl⟩ := Reader.run_interrupted_text hnext hcode hrest
  have hpieces (number : Nat) :
      (Line.code number (String.ofList line.toList) b.index).pieces t.lineCount = .ok [] :=
    pieces_of_nothing (Lexeme.next?_of_nothing (.inr hcomment))
  have hunfinished := (Reader.run_reached hrun).pending b hr hpending
  rw [hsplit] at form
  exact LinesForm.not_unfinished rfl (hpieces _) hunfinished form

theorem harmless_of_ofSource_insert {p q : Program}
    (hp : Program.ofSource (before ++ "\n" ++ after) = .ok p)
    (hrun : Reader.start.run 1 (linesOf before) = .ok (ls, r)) (hr : r.current = some b)
    (hfeed : '\n' ∉ line.toList) (hreturn : '\r' ∉ line.toList)
    (hline : allBlank line.toList = true ∨ startsComment (trimStart line.toList) = true)
    (hq : Program.ofSource (before ++ "\n" ++ (line ++ e.text ++ after)) = .ok q) :
    Harmless b line.toList (linesOf after) := by
  rcases hline with hblank | hcomment
  · exact .inl hblank
  cases hpending : b.pending with
  | false => exact .inr (.inl hpending)
  | true =>
      cases hnext : firstFilled? (linesOf after) with
      | none =>
          -- Blank lines cannot close the block.
          obtain ⟨t, ht, _⟩ := ofSource_eq_ok_iff.1 hp
          obtain ⟨back, blocks, _, hback, _⟩ := ofSource_append hrun ht
          rw [Reader.run_blank hr (by simpa [firstFilled?] using hnext)] at hback
          cases hback
          cases hr
      | some next =>
          cases hcode : readsAsCode next with
          | true => exact .inr (.inr ⟨next, hnext, hcode⟩)
          | false =>
              exact absurd hq (ofSource_insert_ne_ok hrun hr hfeed hreturn hcomment hpending hnext hcode q)

/-- What a blank line or a comment in an open block does to a template that is compiled: where it is
harmless, the program is the same but for the numbers of the lines behind it, and anywhere else there
is no program any more. -/
theorem ofSource_insert {p : Program} (hp : Program.ofSource (before ++ "\n" ++ after) = .ok p)
    (hrun : Reader.start.run 1 (linesOf before) = .ok (ls, r)) (hr : r.current = some b)
    (hfeed : '\n' ∉ line.toList) (hreturn : '\r' ∉ line.toList) (he : e = .crlf → p.ending = .crlf)
    (hline : allBlank line.toList = true ∨ startsComment (trimStart line.toList) = true) :
    (Harmless b line.toList (linesOf after) →
      Program.ofSource (before ++ "\n" ++ (line ++ e.text ++ after)) =
        .ok (p.renumber (shiftAfter (linesOf before).length))) ∧
      (¬ Harmless b line.toList (linesOf after) →
        ∀ q, Program.ofSource (before ++ "\n" ++ (line ++ e.text ++ after)) ≠ .ok q) :=
  ⟨ofSource_insert_of_harmless hp hrun hr hfeed hreturn he hline,
    fun h _ hq => h (harmless_of_ofSource_insert hp hrun hr hfeed hreturn hline hq)⟩

end Insert

theorem ofSource_assignment :
    Program.ofSource ("@\x7b\nx = a" ++ "\n" ++ ";\n\x7d\nc") =
      .ok ⟨[.change (.assign 2 "x" .set (.path ["a"])), .literal 5 "c"], .lf⟩ := by
  have hlines : linesOf ("@\x7b\nx = a" ++ "\n" ++ ";\n\x7d\nc") =
      [['@', '{'], "x = a".toList, [';'], ['}'], ['c']] := by decide
  have ht : Template.ofSource ("@\x7b\nx = a" ++ "\n" ++ ";\n\x7d\nc") =
      .ok ⟨[.code 2 "x = a" 0, .code 3 ";" 0, .text 5 [.literal "c"] none], 5, .lf⟩ := by
    refine Reader.ofSource_eq_ok_iff.2 ⟨1, ?_, by decide, by decide⟩
    rw [hlines]
    cbv
  exact bind_eq_ok_iff.2 ⟨_, ht, by cbv⟩

/-- A comment in an assignment that the next line ends. -/
theorem ofSource_insert_assignment :
    Program.ofSource ("@\x7b\nx = a" ++ "\n" ++ ("  // b" ++ LineEnding.lf.text ++ ";\n\x7d\nc")) =
      .ok ⟨[.change (.assign 2 "x" .set (.path ["a"])), .literal 6 "c"], .lf⟩ := by
  have hlines : linesOf "@\x7b\nx = a" = [['@', '{'], "x = a".toList] := by decide
  have hrun : Reader.start.run 1 (linesOf "@\x7b\nx = a") =
      .ok ([.code 2 "x = a" 0], ⟨1, some ⟨1, 1, 0, false, true⟩⟩) := by
    rw [hlines]
    cbv
  have hcomment : startsComment (trimStart "  // b".toList) = true := by decide
  have hharmless : Harmless ⟨1, 1, 0, false, true⟩ "  // b".toList (linesOf ";\n\x7d\nc") :=
    .inr (.inr ⟨[';'], by decide, by cbv⟩)
  have hinsert := ofSource_insert (e := .lf) ofSource_assignment hrun rfl (by decide) (by decide)
    (by decide) (.inr hcomment)
  rw [hlines] at hinsert
  exact hinsert.1 hharmless

/-- A comment in a declaration that the next line goes on with, though a block is open there. -/
theorem comment_breaks_declaration :
    Program.ofSource "@\x7b\nvar m = a\n+ b;\n\x7d" =
        .ok ⟨[.change (.declare 2 "m" (some (.binary .add (.path ["a"]) (.path ["b"]))))], .lf⟩ ∧
      Reader.start.run 1 (linesOf "@\x7b\nvar m = a") =
        .ok ([.code 2 "var m = a" 0], ⟨1, some ⟨1, 1, 0, false, true⟩⟩) ∧
      Program.ofSource "@\x7b\nvar m = a\n// b\n+ b;\n\x7d" =
        .error ⟨4, .unexpectedText (.symbol .semicolon)⟩ := by
  have hbefore : linesOf "@\x7b\nvar m = a" = [['@', '{'], "var m = a".toList] := by decide
  have hwithout : linesOf "@\x7b\nvar m = a\n+ b;\n\x7d" =
      [['@', '{'], "var m = a".toList, "+ b;".toList, ['}']] := by decide
  have hwith : linesOf "@\x7b\nvar m = a\n// b\n+ b;\n\x7d" =
      [['@', '{'], "var m = a".toList, "// b".toList, "+ b;".toList, ['}']] := by decide
  refine ⟨?_, ?_, ?_⟩
  · have ht : Template.ofSource "@\x7b\nvar m = a\n+ b;\n\x7d" =
        .ok ⟨[.code 2 "var m = a" 0, .code 3 "+ b;" 0], 4, .lf⟩ := by
      refine Reader.ofSource_eq_ok_iff.2 ⟨1, ?_, by decide, by decide⟩
      rw [hwithout]
      cbv
    exact bind_eq_ok_iff.2 ⟨_, ht, by cbv⟩
  · rw [hbefore]
    cbv
  · have ht : Template.ofSource "@\x7b\nvar m = a\n// b\n+ b;\n\x7d" =
        .ok ⟨[.code 2 "var m = a" 0, .code 3 "// b" 0, .text 4 [.literal "+ b;"] (some 0)], 5, .lf⟩ := by
      refine Reader.ofSource_eq_ok_iff.2 ⟨1, ?_, by decide, by decide⟩
      rw [hwith]
      cbv
    rw [Program.ofSource, ht]
    cbv

end MailTemplate
