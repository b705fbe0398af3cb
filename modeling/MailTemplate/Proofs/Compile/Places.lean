import MailTemplate.Proofs.Compile.Account
import MailTemplate.Proofs.Compile.Relocation
import MailTemplate.Proofs.Render.Interpreter

/-!
# Where instructions and errors stand

The lines of a program's instructions, each before its parts, are in the order of the source and are lines of
it (`ofSource_lineNumbers`). An error that keeps a source from being compiled is on one of its lines
(`Program.ofSource_error_line`).
-/

namespace MailTemplate

open Text

/-! ## Statements -/

/-- The line of a token, and the lines of what a text line puts out. -/
def Piece.lineNumbers : Piece → List Nat
  | token line _ => [line]
  | text _ output => lineNumbersOf output

theorem lineNumbersOf_append (is js : List Instruction) :
    lineNumbersOf (is ++ js) = lineNumbersOf is ++ lineNumbersOf js := by
  induction is with
  | nil => rfl
  | cons i is ih => simp [lineNumbersOf, ih]

theorem lineNumbersOf_singleton (i : Instruction) : lineNumbersOf [i] = i.lineNumbers := List.append_nil _

section Heads

variable {ps : List Piece} {c : Change}

/-- A change has the line of its first token. -/
theorem ChangeForm.line_mem (form : ChangeForm ps c) : c.line ∈ ps.flatMap Piece.lineNumbers := by
  rcases form with form | form
  · cases form <;> simp [Change.line, Piece.lineNumbers]
  · cases form <;> simp [Change.line, Piece.lineNumbers]

theorem OptionForm.lineNumbers {init : Option Change} (form : OptionForm ChangeForm ps init) :
    (init.map Change.line).toList.Sublist (ps.flatMap Piece.lineNumbers) := by
  cases form with
  | none => exact List.nil_sublist _
  | some form => exact List.singleton_sublist.2 form.line_mem

theorem ForHeadForm.lineNumbers {head : ForHead} (form : ForHeadForm ps head) :
    ((head.init.map Change.line).toList ++ (head.step.map Change.line).toList).Sublist
      (ps.flatMap Piece.lineNumbers) := by
  obtain @⟨ps, qs, rs, init, test, step, l, l₁, l₂, l', hinit, _, hstep⟩ := form
  have hstep' : OptionForm ChangeForm rs step := by
    cases hstep with
    | none => exact .none
    | some form => exact .some (.assignment form)
  simp only [List.flatMap_append, List.flatMap_cons, Piece.lineNumbers, List.append_assoc,
    List.cons_append, List.nil_append]
  apply List.Sublist.cons
  apply hinit.lineNumbers.append
  apply List.Sublist.cons
  exact (((hstep'.lineNumbers.trans (List.sublist_append_left _ _)).cons l₂).trans
    (List.sublist_append_right _ _))

end Heads

mutual

theorem StatementForm.lineNumbers {d : Bool} {ps : List Piece} {is : List Instruction}
    (form : StatementForm d ps is) : (lineNumbersOf is).Sublist (ps.flatMap Piece.lineNumbers) := by
  match form with
  | .text l output => simp [Piece.lineNumbers]
  | .empty l => exact List.nil_sublist _
  | .scope l l' form =>
      rw [lineNumbersOf_singleton, List.cons_append, List.flatMap_cons, List.flatMap_append]
      exact (form.lineNumbers.trans (List.sublist_append_left _ _)).cons_cons l
  | .change l form =>
      rw [lineNumbersOf_singleton, List.flatMap_append]
      exact List.singleton_sublist.2 (List.mem_append_left _ form.line_mem)
  | .choice l form =>
      rw [lineNumbersOf_singleton, List.flatMap_cons]
      exact form.lineNumbers.cons_cons l
  | .forLoop l headForm form =>
      rw [lineNumbersOf_singleton, List.cons_append, List.flatMap_cons, List.flatMap_append,
        Instruction.lineNumbers, ← List.append_assoc]
      exact (headForm.lineNumbers.append form.lineNumbers).cons_cons l
  | .forEach l headForm form =>
      rw [lineNumbersOf_singleton, List.cons_append, List.flatMap_cons, List.flatMap_append]
      exact (form.lineNumbers.trans (List.sublist_append_right _ _)).cons_cons l
  | .whileLoop l testForm form =>
      rw [lineNumbersOf_singleton, List.cons_append, List.flatMap_cons, List.flatMap_append]
      exact (form.lineNumbers.trans (List.sublist_append_right _ _)).cons_cons l

theorem StatementsForm.lineNumbers {ps : List Piece} {is : List Instruction} (form : StatementsForm ps is) :
    (lineNumbersOf is).Sublist (ps.flatMap Piece.lineNumbers) := by
  match form with
  | .nil => exact List.nil_sublist _
  | .cons first more =>
      rw [lineNumbersOf_append, List.flatMap_append]
      exact first.lineNumbers.append more.lineNumbers

theorem BodyForm.lineNumbers {d : Bool} {ps : List Piece} {is : List Instruction} (form : BodyForm d ps is) :
    (lineNumbersOf is).Sublist (ps.flatMap Piece.lineNumbers) := by
  match form with
  | .braced l l' form =>
      rw [List.cons_append, List.flatMap_cons, List.flatMap_append]
      exact (form.lineNumbers.trans (List.sublist_append_left _ _)).cons l
  | .single form _ => exact form.lineNumbers

theorem ArmsForm.lineNumbers {d : Bool} {ps : List Piece} {arms : Arms} (form : ArmsForm d ps arms) :
    arms.lineNumbers.Sublist (ps.flatMap Piece.lineNumbers) := by
  match form with
  | .last testForm form =>
      rw [Arms.lineNumbers, Arms.lineNumbers, List.append_nil, List.flatMap_append]
      exact form.lineNumbers.trans (List.sublist_append_right _ _)
  | .otherwise l testForm form otherForm _ =>
      rw [Arms.lineNumbers, Arms.lineNumbers, List.flatMap_append, List.flatMap_append, List.flatMap_cons]
      apply (form.lineNumbers.trans (List.sublist_append_right _ _)).append
      exact otherForm.lineNumbers.cons l
  | .next l l' testForm form nextForm =>
      rw [Arms.lineNumbers, List.flatMap_append, List.flatMap_append, List.flatMap_cons, List.flatMap_cons]
      apply (form.lineNumbers.trans (List.sublist_append_right _ _)).append
      exact (nextForm.lineNumbers.cons l').cons l

end

/-! ## Lines -/

/-- The numbers are in order, and are numbers of the lines. -/
structure InLines (ls : List Line) (ns : List Nat) : Prop where
  ordered : ns.Pairwise (· ≤ ·)
  numbered : ∀ n ∈ ns, n ∈ ls.map Line.number

section InLines

variable {ls ms : List Line} {ns ks : List Nat} {n : Nat}

theorem inLines_nil : InLines ls [] := ⟨.nil, nofun⟩

theorem InLines.sublist (h : InLines ls ns) (hks : ks.Sublist ns) : InLines ls ks :=
  ⟨h.ordered.sublist hks, fun k hk => h.numbered k (hks.subset hk)⟩

theorem InLines.append (hls : InLines ls ns) (hms : InLines ms ks)
    (hlt : ((ls ++ ms).map Line.number).Pairwise (· < ·)) : InLines (ls ++ ms) (ns ++ ks) := by
  rw [List.map_append, List.pairwise_append] at hlt
  constructor
  · rw [List.pairwise_append]
    refine ⟨hls.ordered, hms.ordered, fun n hn k hk => ?_⟩
    exact Nat.le_of_lt (hlt.2.2 n (hls.numbered n hn) k (hms.numbered k hk))
  · intro n hn
    rw [List.map_append, List.mem_append]
    exact (List.mem_append.1 hn).imp (hls.numbered n) (hms.numbered n)

theorem inLines_of_forall {l : Line} (h : ∀ n ∈ ns, n = l.number) : InLines [l] ns := by
  constructor
  · refine List.pairwise_of_forall_mem_list fun n hn k hk => ?_
    exact Nat.le_of_eq ((h n hn).trans (h k hk).symm)
  · exact fun n hn => List.mem_singleton.2 (h n hn)

theorem toInstruction_lineNumbers {number : Nat} {fragment : Fragment} {i : Instruction}
    (h : fragment.toInstruction number = .ok i) : i.lineNumbers = [number] := by
  cases fragment with
  | literal text =>
      cases h
      rfl
  | reference path =>
      cases h
      rfl
  | expression text =>
      obtain ⟨e, _, rfl⟩ := map_eq_ok_iff.1 h
      rfl

theorem fragments_lineNumbers {number : Nat} {fragments : List Fragment} {is : List Instruction}
    (h : List.Forall₂ (fun fragment i => Fragment.toInstruction number fragment = .ok i) fragments is) :
    ∀ n ∈ lineNumbersOf is, n = number := by
  induction h with
  | nil => nofun
  | cons hi _ ih =>
      rw [lineNumbersOf, toInstruction_lineNumbers hi]
      exact List.forall_mem_append.2 ⟨fun n hn => List.mem_singleton.1 hn, ih⟩

theorem textInstructions_lineNumbers {number : Nat} {fragments : List Fragment} {isLast : Bool}
    {output : List Instruction} (h : textInstructions number fragments isLast = .ok output) :
    ∀ n ∈ lineNumbersOf output, n = number := by
  obtain ⟨is, his, h⟩ := bind_eq_ok_iff.1 h
  have hfragments := fragments_lineNumbers (mapM_eq_ok_iff.1 his)
  cases h
  cases isLast with
  | true => exact hfragments
  | false =>
      simp only [Bool.false_eq_true, if_false, lineNumbersOf_append]
      exact List.forall_mem_append.2 ⟨hfragments, fun n hn => List.mem_singleton.1 hn⟩

theorem inLines_of_pieces {l : Line} {ps : List Piece} (h : l.pieces n = .ok ps) :
    InLines [l] (ps.flatMap Piece.lineNumbers) := by
  apply inLines_of_forall
  cases l with
  | text number fragments b =>
      obtain ⟨output, houtput, rfl⟩ := pieces_text.1 h
      simpa [Piece.lineNumbers, Line.number] using textInstructions_lineNumbers houtput
  | code number text b =>
      rw [Line.pieces, Piece.ofCode] at h
      split at h
      · cases h
        simp [Piece.lineNumbers, Line.number]
      · cases h

theorem PiecesOf.inLines {pss : List (List Piece)} (hps : PiecesOf n ls pss)
    (hls : (ls.map Line.number).Pairwise (· < ·)) : InLines ls (pss.flatten.flatMap Piece.lineNumbers) := by
  induction hps with
  | nil => exact inLines_nil
  | cons hl _ ih =>
      rw [List.flatten_cons, List.flatMap_append]
      exact (inLines_of_pieces hl).append (ih (List.pairwise_cons.1 hls).2) hls

theorem LinesForm.inLines {is : List Instruction} (form : LinesForm n ls is)
    (hls : (ls.map Line.number).Pairwise (· < ·)) : InLines ls (lineNumbersOf is) := by
  induction form with
  | nil => exact inLines_nil
  | @text number fragments output ls is houtput _ ih =>
      rw [lineNumbersOf_append]
      have hfirst : InLines [.text number fragments none] (lineNumbersOf output) :=
        inLines_of_forall (textInstructions_lineNumbers houtput)
      exact hfirst.append (ih (List.pairwise_cons.1 hls).2) hls
  | block _ hps form _ _ ih =>
      rw [lineNumbersOf_append]
      have hboth := hls
      rw [List.map_append, List.pairwise_append] at hboth
      exact ((hps.inLines hboth.1).sublist form.lineNumbers).append (ih hboth.2.1) hls

end InLines

theorem Template.number_bounds {source : String} {t : Template} {l : Line}
    (ht : Template.ofSource source = .ok t) (hl : l ∈ t.lines) :
    1 ≤ l.number ∧ l.number ≤ (linesOf source).length := by
  obtain ⟨_, _, _, h⟩ := Reader.passes_of_mem ht hl
  exact ⟨h.number_pos, h.number_le⟩

/-- The lines of instructions are lines of the source, and come in their order. -/
theorem ofSource_lineNumbers {source : String} {p : Program} (h : Program.ofSource source = .ok p) :
    (lineNumbersOf p.instructions).Pairwise (· ≤ ·) ∧
      ∀ n ∈ lineNumbersOf p.instructions, 1 ≤ n ∧ n ≤ (linesOf source).length := by
  obtain ⟨t, ht, form, _⟩ := ofSource_eq_ok_iff.1 h
  obtain ⟨blocks, hrun, _⟩ := Reader.ofSource_eq_ok_iff.1 ht
  have hlines := form.inLines (Reader.run_ordered hrun).1
  refine ⟨hlines.ordered, fun n hn => ?_⟩
  obtain ⟨l, hl, rfl⟩ := List.mem_map.1 (hlines.numbered n hn)
  exact Template.number_bounds ht hl

/-! ## Errors of the reader -/

namespace Reader

variable {r r' : Reader} {number : Nat} {lines : List (List Char)} {ls : List Line} {o : Option Line}

theorem run_error_line {e : SyntaxError} (h : r.run number lines = .error e) :
    number ≤ e.line ∧ e.line < number + lines.length := by
  induction lines generalizing r number with
  | nil => cases h
  | cons line lines ih =>
      rw [run] at h
      simp only [List.length_cons]
      split at h
      · cases h
        exact ⟨Nat.le_refl _, Nat.lt_add_of_pos_right (Nat.succ_pos _)⟩
      · split at h
        · rename_i hmore
          cases h
          have := ih hmore
          omega
        · cases h

/-- The reader comes to the line `number`, and a block that is open was opened at an earlier one. -/
structure OpenedBefore (number : Nat) (r : Reader) : Prop where
  pos : 0 < number
  opened : ∀ b ∈ r.current, 0 < b.openedAt ∧ b.openedAt < number

theorem OpenedBefore.step (h : OpenedBefore number r) (hstep : Steps r number o r') :
    OpenedBefore (number + 1) r' := by
  have hlater : ∀ b ∈ r.current, 0 < b.openedAt ∧ b.openedAt < number + 1 := fun b hb =>
    ⟨(h.opened b hb).1, Nat.lt_succ_of_lt (h.opened b hb).2⟩
  refine ⟨Nat.succ_pos _, ?_⟩
  cases hstep with
  | text | blank => exact hlater
  | closing => nofun
  | @code b _ _ _ _ hb =>
      rintro _ ⟨⟩
      cases hb with
      | inside hr => exact hlater b hr
      | opening => exact ⟨h.pos, Nat.lt_succ_self _⟩

theorem run_openedBefore (h : start.run 1 lines = .ok (ls, r)) : OpenedBefore (1 + lines.length) r :=
  @run_invariant start r 1 (fun number _ r => OpenedBefore number r)
    (fun _ _ _ _ _ hP hstep => hP.step hstep) lines [] ls ⟨Nat.one_pos, nofun⟩ h

end Reader

theorem Template.ofSource_error_line {source : String} {e : SyntaxError}
    (h : Template.ofSource source = .error e) : 1 ≤ e.line ∧ e.line ≤ (linesOf source).length := by
  rw [Template.ofSource] at h
  split at h
  · rename_i hrun
    cases h
    have := Reader.run_error_line hrun
    omega
  · rename_i b hrun
    cases h
    have hopened := (Reader.run_openedBefore hrun).opened b rfl
    refine ⟨hopened.1, ?_⟩
    change b.openedAt ≤ _
    omega
  · cases h

/-! ## Errors of compiling -/

namespace Line

variable {ls : List Line} {n : Nat} {e : SyntaxError}

theorem renumber_of_fixed {f : Nat → Nat} {l : Line} (h : f l.number = l.number) : l.renumber f = l := by
  cases l with
  | text | code =>
      rw [renumber]
      congr

/-- On lines that a change of numbers leaves as they are, it leaves an error as it is. -/
theorem compileAll_error_fixed {f : Nat → Nat} (hf : ∀ l ∈ ls, f l.number = l.number)
    (h : compileAll n ls = .error e) : f e.line = e.line := by
  have hrelocate : compileAll n (ls.map (relocate f 0)) = _ :=
    compileAll_relocate fun l hl => isLast_relocate (by rw [hf l hl])
  rw [relocate_zero, List.map_congr_left fun l hl => renumber_of_fixed (hf l hl), List.map_id', h]
    at hrelocate
  exact (congrArg SyntaxError.line (Except.error.inj hrelocate)).symm

theorem compileAll_error_line (h : compileAll n ls = .error e) : ∃ l ∈ ls, e.line = l.number := by
  cases ls with
  | nil => cases h
  | cons first ls =>
      -- the numbers of the lines stay, and all other numbers become that of the first line
      have hfixed := compileAll_error_fixed
        (f := fun m => if m ∈ (first :: ls).map number then m else first.number)
        (fun l hl => if_pos (List.mem_map_of_mem hl)) h
      split at hfixed
      · rename_i hmem
        obtain ⟨l, hl, hnumber⟩ := List.mem_map.1 hmem
        exact ⟨l, hl, hnumber.symm⟩
      · exact ⟨first, List.mem_cons_self, hfixed.symm⟩

end Line

/-- A source that is not compiled has an error on one of its lines. -/
theorem Program.ofSource_error_line {source : String} {e : SyntaxError}
    (h : Program.ofSource source = .error e) : 1 ≤ e.line ∧ e.line ≤ (linesOf source).length := by
  rw [Program.ofSource] at h
  cases ht : Template.ofSource source with
  | error e' =>
      rw [ht] at h
      cases h
      exact Template.ofSource_error_line ht
  | ok t =>
      rw [ht] at h
      change t.compile = .error e at h
      rw [Line.compile_eq] at h
      cases hlines : Line.compileAll t.lineCount t.lines with
      | ok is =>
          rw [hlines] at h
          cases h
      | error e' =>
          rw [hlines] at h
          cases h
          obtain ⟨l, hl, hline⟩ := Line.compileAll_error_line hlines
          rw [hline]
          exact Template.number_bounds ht hl

end MailTemplate
