import MailTemplate.Proofs.Compile.Account
import MailTemplate.Proofs.Compile.Insertion
import MailTemplate.Proofs.Template.Bracing
import MailTemplate.Proofs.Text.Within
import MailTemplate.TemplateError

/-!
# References and expressions of a source

A reference of a text line means what the expression of its path means. A source with the one in place of the other
compiles to the same program (`Program.ofSource_braced`).
-/

namespace MailTemplate

open Text Reader

/-! ## Lines that mean the same -/

/-- Lines that mean the same in a template of `lineCount` lines: one line, or text lines with the same instructions. -/
inductive Line.Agrees (lineCount : Nat) : Line → Line → Prop
  | same (l : Line) : Agrees lineCount l l
  | text {number fragments fragments' block} :
      textInstructions number fragments (number == lineCount) =
        textInstructions number fragments' (number == lineCount) →
      Agrees lineCount (.text number fragments block) (.text number fragments' block)

namespace Line.Agrees

variable {n : Nat} {l l' : Line}

theorem block_eq (h : Agrees n l l') : l'.block = l.block := by cases h <;> rfl

theorem pieces_eq (h : Agrees n l l') : l'.pieces n = l.pieces n := by
  cases h with
  | same => rfl
  | text hsame => rw [pieces, pieces, hsame]

end Line.Agrees

theorem PiecesOf.agrees {n : Nat} {ls ls' : List Line} {pss : List (List Piece)} (h : PiecesOf n ls pss)
    (hls : List.Forall₂ (Line.Agrees n) ls ls') : PiecesOf n ls' pss := by
  induction hls generalizing pss with
  | nil => exact h
  | cons hl _ ih =>
      obtain ⟨ps, pss, hps, hmore, rfl⟩ := List.forall₂_cons_left_iff.1 h
      exact .cons (hl.pieces_eq.trans hps) (ih hmore)

theorem block_of_agrees {n : Nat} {ls ls' : List Line} {k : Option Nat} (hls : List.Forall₂ (Line.Agrees n) ls ls')
    (h : ∀ l ∈ ls, l.block = k) : ∀ l ∈ ls', l.block = k := by
  induction hls with
  | nil => exact h
  | cons hl _ ih =>
      obtain ⟨hfirst, hmore⟩ := List.forall_mem_cons.1 h
      exact List.forall_mem_cons.2 ⟨hl.block_eq.trans hfirst, ih hmore⟩

theorem LinesForm.agrees {n : Nat} {ls ls' : List Line} {is : List Instruction} (h : LinesForm n ls is)
    (hls : List.Forall₂ (Line.Agrees n) ls ls') : LinesForm n ls' is := by
  induction h generalizing ls' with
  | nil =>
      cases hls
      exact .nil
  | text houtput _ ih =>
      obtain ⟨l', more, hl, hmore, rfl⟩ := List.forall₂_cons_left_iff.1 hls
      cases hl with
      | same => exact .text houtput (ih hmore)
      | text hsame => exact .text (hsame ▸ houtput) (ih hmore)
  | block hms hps form hhead _ ih =>
      obtain ⟨ms', more, rfl, hms', hmore⟩ := forall₂_append_cases hls
      refine .block (block_of_agrees hms' hms) (hps.agrees hms') form ?_ (ih hmore)
      intro l hl
      cases hmore with
      | nil => cases hl
      | cons hfirst _ =>
          cases hl
          rw [hfirst.block_eq]
          exact hhead _ rfl

/-! ## A reference and the expression of its path -/

open Fragment in
theorem textInstructions_braced {path : List String} (hpath : IsPath path) (hfree : IsFree path)
    (number : Nat) (front behind : List Fragment) (isLast : Bool) :
    textInstructions number (front ++ reference path :: behind) isLast =
      textInstructions number (front ++ expression (".".intercalate path) :: behind) isLast := by
  have hsame : (expression (".".intercalate path)).toInstruction number = (reference path).toInstruction number := by
    rw [toInstruction, toInstruction, toList_path, ofText_path hpath hfree]
    rfl
  simp only [textInstructions, List.mapM_append, List.mapM_cons, hsame]

/-- The source that `before`, a reference to the path and `after` make up is that of a template, and a text line of
it comes to the reference: the segments are words, `after` does not go on with the path, and no escape, reference or
expression that begins before it takes in its `@`. -/
structure Refers (before : String) (path : List String) (after : String) : Prop where
  words : IsPath path
  ends : EndsPath after.toList
  text : ∃ t fragments block, Template.ofSource (before ++ ("@" ++ ".".intercalate path) ++ after) = .ok t ∧
    .text (lineNumber before) fragments block ∈ t.lines ∧
    Fragment.Reaches (textOf block (referring (startOfLine before) path (restOfLine after)))
      ('@' :: (pathChars path ++ restOfLine after))

section Braced

variable {before after : String} {path : List String} {t : Template}

theorem endsPath_restOfLine (h : EndsPath after.toList) : EndsPath (restOfLine after) :=
  h.like (.of_cut (restOfLine_cut after))

theorem IsPath.not_mem {c : Char} (h : IsPath path) (hc : isWordChar c = false) (hdot : c ≠ '.') :
    c ∉ pathChars path := by
  intro hmem
  rcases h.chars c hmem with hword | hword
  · rw [hc] at hword
    cases hword
  · exact hdot hword

theorem toList_reference (path : List String) : ("@" ++ ".".intercalate path).toList = '@' :: pathChars path := by
  rw [String.toList_append, toList_path]
  rfl

theorem toList_expression (path : List String) :
    ("@\x7b" ++ ".".intercalate path ++ "\x7d").toList = '@' :: '{' :: (pathChars path ++ ['}']) := by
  rw [String.toList_append, String.toList_append, toList_path]
  rfl

theorem linesOf_referring (h : IsPath path) (before after : String) :
    linesOf (before ++ ("@" ++ ".".intercalate path) ++ after) =
      linesBefore before ++ referring (startOfLine before) path (restOfLine after) :: linesBehind after := by
  have hfeed := h.not_mem (c := '\n') (by decide) (by decide)
  have hreturn := h.not_mem (c := '\r') (by decide) (by decide)
  rw [linesOf_around, toList_reference]
  · rfl
  all_goals
    rw [toList_reference]
    simp [hfeed, hreturn]

theorem linesOf_braced (h : IsPath path) (before after : String) :
    linesOf (before ++ ("@\x7b" ++ ".".intercalate path ++ "\x7d") ++ after) =
      linesBefore before ++ braced (startOfLine before) path (restOfLine after) :: linesBehind after := by
  have hfeed := h.not_mem (c := '\n') (by decide) (by decide)
  have hreturn := h.not_mem (c := '\r') (by decide) (by decide)
  rw [linesOf_around, toList_expression]
  · simp [braced]
  all_goals
    rw [toList_expression]
    simp [hfeed, hreturn]

theorem ofText_braced (h : IsPath path) (before after : String) :
    LineEnding.ofText (before ++ ("@\x7b" ++ ".".intercalate path ++ "\x7d") ++ after) =
      LineEnding.ofText (before ++ ("@" ++ ".".intercalate path) ++ after) := by
  have hfeed := h.not_mem (c := '\n') (by decide) (by decide)
  have hreturn := h.not_mem (c := '\r') (by decide) (by decide)
  rw [LineEnding.ofText_around, LineEnding.ofText_around]
  all_goals
    first | rw [toList_reference] | rw [toList_expression]
    simp [hfeed, hreturn]

theorem Template.ofSource_bracing (ht : ofSource (before ++ ("@" ++ ".".intercalate path) ++ after) = .ok t)
    (h : Refers before path after) (hfree : IsFree path) :
    ∃ ls number front behind block more,
      t.lines = ls ++ .text number (front ++ .reference path :: behind) block :: more ∧
      ofSource (before ++ ("@\x7b" ++ ".".intercalate path ++ "\x7d") ++ after) = .ok { t with
        lines := ls ++ .text number (front ++ .expression (".".intercalate path) :: behind) block :: more } := by
  obtain ⟨hpath, hends, t', fragments, block, ht', hline, hreaches⟩ := h
  rw [ht] at ht'
  cases ht'
  obtain ⟨line, r, r', hstep, front, back, ls, hlines, hnumber, hfront⟩ := passes_of_mem ht hline
  obtain ⟨blocks, hrun, hcount, hending⟩ := Reader.ofSource_eq_ok_iff.1 ht
  -- The line with the reference is the one that the reader takes the text from.
  have hsource := linesOf_referring hpath before after
  have hlength : (linesBefore before).length = front.length :=
    Nat.add_right_cancel ((length_linesBefore before).trans hnumber)
  obtain ⟨rfl, hrest⟩ := List.append_inj (hsource.symm.trans hlines) hlength
  cases hrest
  have hat : 1 + (linesBefore before).length = lineNumber before := by
    rw [Nat.add_comm, length_linesBefore]
  rw [hsource] at hrun
  obtain ⟨_, _, after', hfront', hbehind, hls⟩ := run_append_eq_ok_iff.1 hrun
  rw [hfront] at hfront'
  cases hfront'
  obtain ⟨_, _, more, hstep', hmore, rfl⟩ := run_cons_eq_ok_iff.1 hbehind
  rw [hat] at hstep' hmore
  rw [show (Line.text (lineNumber before) fragments block).number = lineNumber before from rfl, hstep'] at hstep
  cases hstep
  obtain ⟨front, behind, rfl, hbraced⟩ := step_braced hpath hfree (endsPath_restOfLine hends) hstep' hreaches
  refine ⟨ls, _, front, behind, block, more, hls, Reader.ofSource_eq_ok_iff.2 ⟨blocks, ?_, ?_, ?_⟩⟩
  · rw [linesOf_braced hpath]
    refine run_append_eq_ok_iff.2 ⟨ls, r, _, hfront, ?_, rfl⟩
    rw [hat]
    exact run_cons_eq_ok_iff.2 ⟨_, r', more, hbraced, hmore, rfl⟩
  · rw [hcount, hsource, linesOf_braced hpath, List.length_append, List.length_append, List.length_cons,
      List.length_cons]
  · rw [hending, ofText_braced hpath]

end Braced

theorem not_isWordChar_of_ending {c : Char} (h : c = '\r' ∨ c = '\n') : isWordChar c = false ∧ c ≠ '.' := by
  rcases h with rfl | rfl <;> decide

/-- Every reference of a template stands in its source. -/
theorem Template.exists_refers {source : String} {t : Template} (ht : ofSource source = .ok t) {number : Nat}
    {fragments : List Fragment} {block : Option Nat} (hline : .text number fragments block ∈ t.lines)
    {path : List String} (hpath : .reference path ∈ fragments) :
    ∃ before after, source = before ++ ("@" ++ ".".intercalate path) ++ after ∧ lineNumber before = number ∧
      Refers before path after := by
  obtain ⟨line, r, r', hstep, front, back, ls, hlines, hnumber, _⟩ := passes_of_mem ht hline
  obtain ⟨_, _, _, hfragments, _⟩ := step_text_iff.1 hstep
  obtain ⟨rest, hwords, hends, hreaches⟩ := Fragment.exists_reaches hfragments hpath
  obtain ⟨within, hwithin, _⟩ := hreaches.reads
  obtain ⟨marker, hmarker⟩ := textOf_suffix block line
  have htext : line = (marker ++ within) ++ (("@" ++ ".".intercalate path).toList ++ rest) := by
    rw [hmarker, hwithin, toList_reference]
    simp
  rw [htext] at hlines
  obtain ⟨before, after, ending, hsource, hstart, hrest, hat, hafter, hhead⟩ := linesOf_at hlines
  have hnumber : number = front.length + 1 := hnumber
  rw [← hnumber] at hat
  have hends' : EndsPath after.toList := hafter ▸ hends.append fun c hc => not_isWordChar_of_ending (hhead c hc)
  refine ⟨before, after, hsource, hat, hwords, hends', t, fragments, block, hsource ▸ ht, hat ▸ hline, ?_⟩
  rw [hstart, hrest, referring, List.append_assoc, ← hwithin, ← hmarker]
  exact hreaches

/-- A reference of a text line, none of whose segments is a keyword, and the expression of its path are
interchangeable: with the expression in its place the source compiles to the same program, and renders alike with
every model. -/
theorem Program.ofSource_braced {before after : String} {path : List String} {p : Program}
    (hp : ofSource (before ++ ("@" ++ ".".intercalate path) ++ after) = .ok p) (h : Refers before path after)
    (hfree : IsFree path) :
    ofSource (before ++ ("@\x7b" ++ ".".intercalate path ++ "\x7d") ++ after) = .ok p ∧ ∀ o model,
      renderSource o (before ++ ("@\x7b" ++ ".".intercalate path ++ "\x7d") ++ after) model =
        renderSource o (before ++ ("@" ++ ".".intercalate path) ++ after) model := by
  obtain ⟨t, ht, form, hending⟩ := ofSource_eq_ok_iff.1 hp
  obtain ⟨ls, number, front, behind, block, more, hlines, ht'⟩ := Template.ofSource_bracing ht h hfree
  rw [hlines] at form
  have hagrees : List.Forall₂ (Line.Agrees t.lineCount)
      (ls ++ .text number (front ++ .reference path :: behind) block :: more)
      (ls ++ .text number (front ++ .expression (".".intercalate path) :: behind) block :: more) :=
    List.rel_append (List.forall₂_same.2 fun l _ => .same l)
      (.cons (.text (textInstructions_braced h.words hfree _ _ _ _)) (List.forall₂_same.2 fun l _ => .same l))
  have hp' := ofSource_eq_ok_iff.2 ⟨_, ht', form.agrees hagrees, hending⟩
  exact ⟨hp', fun o model => by simp only [renderSource, hp, hp']⟩

/-- A reference at the start of a line, where an expression could as well begin a block. -/
theorem Program.ofSource_braced_start :
    Refers "" ["a", "b"] "!" ∧ IsFree ["a", "b"] ∧
      ofSource "@a.b!" = .ok ⟨[.value 1 (.path ["a", "b"]), .literal 1 "!"], .lf⟩ ∧
      ofSource "@\x7ba.b\x7d!" = .ok ⟨[.value 1 (.path ["a", "b"]), .literal 1 "!"], .lf⟩ := by
  have hlines : linesOf "@a.b!" = [['@', 'a', '.', 'b', '!']] := by decide
  have ht : Template.ofSource "@a.b!" = .ok ⟨[.text 1 [.reference ["a", "b"], .literal "!"] none], 1, .lf⟩ := by
    refine Reader.ofSource_eq_ok_iff.2 ⟨0, ?_, by decide, by decide⟩
    rw [hlines]
    cbv
  have houtput : textInstructions 1 [.reference ["a", "b"], .literal "!"] (1 == 1) =
      .ok [.value 1 (.path ["a", "b"]), .literal 1 "!"] := by rfl
  have hp : ofSource "@a.b!" = .ok ⟨[.value 1 (.path ["a", "b"]), .literal 1 "!"], .lf⟩ :=
    ofSource_eq_ok_iff.2 ⟨_, ht, .text houtput .nil, rfl⟩
  have hsource : "" ++ ("@" ++ ".".intercalate ["a", "b"]) ++ "!" = "@a.b!" := by decide
  have hbraced : "" ++ ("@\x7b" ++ ".".intercalate ["a", "b"] ++ "\x7d") ++ "!" = "@\x7ba.b\x7d!" := by decide
  have hwords : IsPath ["a", "b"] := by
    refine .more ⟨rfl, ?_⟩ (.single ⟨rfl, ?_⟩) <;> simp <;> rfl
  have hends : EndsPath "!".toList := ⟨by simp; rfl, fun c ds h => by simp at h⟩
  have hrefers : Refers "" ["a", "b"] "!" :=
    ⟨hwords, hends, _, _, _, hsource ▸ ht, List.mem_singleton.2 rfl, .here⟩
  have hfree : IsFree ["a", "b"] := by simp [IsFree]; decide
  have hsame := (ofSource_braced (hsource ▸ hp) hrefers hfree).1
  rw [hbraced] at hsame
  exact ⟨hrefers, hfree, hp, hsame⟩

end MailTemplate
