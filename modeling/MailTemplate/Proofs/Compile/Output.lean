import MailTemplate.Proofs.Compile.Lines
import MailTemplate.Proofs.Template.Reading
import Mathlib

/-!
# Output of a program

The instructions that put something out, listed as they stand in a program, are those of the
template's text lines one after another (`ofSource_emissions`).
-/

namespace MailTemplate

open Text

mutual

/-- The instructions that put something out: what a body holds stands where its instruction does. -/
def Instruction.emissions : Instruction → List Instruction
  | .literal line text => [.literal line text]
  | .value line e => [.value line e]
  | .newline line => [.newline line]
  | .change _ => []
  | .choose _ arms => arms.emissions
  | .forLoop _ _ _ _ body | .forEach _ _ _ body | .whileLoop _ _ body | .scope _ body =>
      emissionsOf body

def emissionsOf : List Instruction → List Instruction
  | [] => []
  | i :: is => i.emissions ++ emissionsOf is

/-- The bodies of the arms in order. -/
def Arms.emissions : Arms → List Instruction
  | .done => []
  | .otherwise body => emissionsOf body
  | .test _ body next => emissionsOf body ++ next.emissions

end

theorem emissionsOf_append (is js : List Instruction) :
    emissionsOf (is ++ js) = emissionsOf is ++ emissionsOf js := by
  induction is with
  | nil => rfl
  | cons i is ih => simp [emissionsOf, ih]

/-! ## Pieces -/

def Piece.emissions : Piece → List Instruction
  | token .. => []
  | text _ output => emissionsOf output

theorem flatMap_emissions_of_isToken {ps : List Piece} (h : ps.all Piece.isToken = true) :
    ps.flatMap Piece.emissions = [] := by
  rw [List.flatMap_eq_nil_iff]
  intro p hp
  cases p with
  | token => rfl
  | text => exact absurd (List.all_eq_true.1 h _ hp) Bool.false_ne_true

mutual

theorem StatementForm.emissions {d : Bool} {ps : List Piece} {is : List Instruction}
    (h : StatementForm d ps is) : emissionsOf is = ps.flatMap Piece.emissions := by
  match h with
  | .text l output => simp [Piece.emissions]
  | .empty l => rfl
  | .scope l l' form =>
      have := form.emissions
      simp [emissionsOf, Instruction.emissions, Piece.emissions, this]
  | .change l form =>
      have := flatMap_emissions_of_isToken form.isToken
      simp [emissionsOf, Instruction.emissions, Piece.emissions, this]
  | .choice l form =>
      have := form.emissions
      simp [emissionsOf, Instruction.emissions, Piece.emissions, this]
  | .forLoop l headForm form =>
      have hhead := flatMap_emissions_of_isToken headForm.isToken
      have := form.emissions
      simp [emissionsOf, Instruction.emissions, Piece.emissions, hhead, this]
  | .forEach l headForm form =>
      have hhead := flatMap_emissions_of_isToken headForm.isToken
      have := form.emissions
      simp [emissionsOf, Instruction.emissions, Piece.emissions, hhead, this]
  | .whileLoop l testForm form =>
      have htest := flatMap_emissions_of_isToken testForm.isToken
      have := form.emissions
      simp [emissionsOf, Instruction.emissions, Piece.emissions, htest, this]

theorem StatementsForm.emissions {ps : List Piece} {is : List Instruction} (h : StatementsForm ps is) :
    emissionsOf is = ps.flatMap Piece.emissions := by
  match h with
  | .nil => rfl
  | .cons first more => rw [emissionsOf_append, first.emissions, more.emissions, List.flatMap_append]

theorem BodyForm.emissions {d : Bool} {ps : List Piece} {is : List Instruction} (h : BodyForm d ps is) :
    emissionsOf is = ps.flatMap Piece.emissions := by
  match h with
  | .braced l l' form =>
      have := form.emissions
      simp [Piece.emissions, this]
  | .single form _ => exact form.emissions

theorem ArmsForm.emissions {d : Bool} {ps : List Piece} {arms : Arms} (h : ArmsForm d ps arms) :
    arms.emissions = ps.flatMap Piece.emissions := by
  match h with
  | .last testForm form =>
      have htest := flatMap_emissions_of_isToken testForm.isToken
      simp [Arms.emissions, htest, form.emissions]
  | .otherwise l testForm form otherForm _ =>
      have htest := flatMap_emissions_of_isToken testForm.isToken
      simp [Arms.emissions, Piece.emissions, htest, form.emissions, otherForm.emissions]
  | .next l l' testForm form nextForm =>
      have htest := flatMap_emissions_of_isToken testForm.isToken
      simp [Arms.emissions, Piece.emissions, htest, form.emissions, nextForm.emissions]

end

/-! ## Lines -/

theorem toInstruction_emissions {number : Nat} {fragment : Fragment} {i : Instruction}
    (h : fragment.toInstruction number = .ok i) : i.emissions = [i] := by
  cases fragment with
  | literal text =>
      cases h
      rfl
  | reference path =>
      cases h
      rfl
  | expression text =>
      obtain ⟨e, _, rfl⟩ := map_eq_ok_iff.1 h
      rfl

theorem fragments_emissions {number : Nat} {fragments : List Fragment} {is : List Instruction}
    (h : List.Forall₂ (fun fragment i => Fragment.toInstruction number fragment = .ok i) fragments is) :
    emissionsOf is = is := by
  induction h with
  | nil => rfl
  | cons hi _ ih =>
      rw [emissionsOf, ih, toInstruction_emissions hi]
      rfl

theorem textInstructions_emissions {number : Nat} {fragments : List Fragment} {isLast : Bool}
    {output : List Instruction} (h : textInstructions number fragments isLast = .ok output) :
    emissionsOf output = output := by
  obtain ⟨is, his, h⟩ := bind_eq_ok_iff.1 h
  have hemit := fragments_emissions (mapM_eq_ok_iff.1 his)
  cases h
  cases isLast with
  | true => exact hemit
  | false => simp [emissionsOf_append, hemit, emissionsOf, Instruction.emissions]

/-- The text lines among some lines, with their numbers. -/
def textLines (ls : List Line) : List (Nat × List Fragment) :=
  ls.filterMap fun
    | .text number fragments _ => some (number, fragments)
    | .code .. => none

/-- What text lines put out, line by line, in a template of `lineCount` lines. -/
def textOutputs (lineCount : Nat) (ls : List Line) : Except SyntaxError (List (List Instruction)) :=
  (textLines ls).mapM fun l => textInstructions l.1 l.2 (l.1 == lineCount)

theorem textOutputs_append {lineCount : Nat} {ls ms : List Line} {os qs : List (List Instruction)}
    (hos : textOutputs lineCount ls = .ok os) (hqs : textOutputs lineCount ms = .ok qs) :
    textOutputs lineCount (ls ++ ms) = .ok (os ++ qs) := by
  rw [textOutputs] at hos hqs ⊢
  rw [textLines, List.filterMap_append, List.mapM_append]
  exact bind_eq_ok_iff.2 ⟨os, hos, bind_eq_ok_iff.2 ⟨qs, hqs, rfl⟩⟩

theorem emissions_of_pieces {lineCount : Nat} {l : Line} {ps : List Piece}
    (h : l.pieces lineCount = .ok ps) :
    ∃ outputs, textOutputs lineCount [l] = .ok outputs ∧
      ps.flatMap Piece.emissions = outputs.flatten := by
  cases l with
  | text number fragments b =>
      obtain ⟨output, houtput, rfl⟩ := pieces_text.1 h
      refine ⟨[output], mapM_eq_ok_iff.2 (.cons houtput .nil), ?_⟩
      simp [Piece.emissions, textInstructions_emissions houtput]
  | code number text b =>
      refine ⟨[], rfl, flatMap_emissions_of_isToken ?_⟩
      rw [Line.pieces, Piece.ofCode] at h
      split at h
      · cases h
        simp [Piece.isToken]
      · cases h

theorem PiecesOf.emissions {lineCount : Nat} {ls : List Line} {pss : List (List Piece)}
    (h : PiecesOf lineCount ls pss) :
    ∃ outputs, textOutputs lineCount ls = .ok outputs ∧
      pss.flatten.flatMap Piece.emissions = outputs.flatten := by
  induction h with
  | nil => exact ⟨[], rfl, rfl⟩
  | @cons l ps ls pss hl _ ih =>
      obtain ⟨first, hfirst, hps⟩ := emissions_of_pieces hl
      obtain ⟨more, hmore, hpss⟩ := ih
      refine ⟨first ++ more, textOutputs_append hfirst hmore, ?_⟩
      rw [List.flatten_cons, List.flatMap_append, hps, hpss, List.flatten_append]

theorem LinesForm.emissions {lineCount : Nat} {ls : List Line} {is : List Instruction}
    (h : LinesForm lineCount ls is) :
    ∃ outputs, textOutputs lineCount ls = .ok outputs ∧ emissionsOf is = outputs.flatten := by
  induction h with
  | nil => exact ⟨[], rfl, rfl⟩
  | @text number fragments output ls is houtput _ ih =>
      obtain ⟨more, hmore, his⟩ := ih
      have hfirst : textOutputs lineCount [.text number fragments none] = .ok [output] :=
        mapM_eq_ok_iff.2 (.cons houtput .nil)
      refine ⟨[output] ++ more, textOutputs_append hfirst hmore, ?_⟩
      rw [emissionsOf_append, textInstructions_emissions houtput, his]
      rfl
  | block _ hps form _ _ ih =>
      obtain ⟨first, hfirst, hemit⟩ := hps.emissions
      obtain ⟨more, hmore, his⟩ := ih
      refine ⟨first ++ more, textOutputs_append hfirst hmore, ?_⟩
      rw [emissionsOf_append, form.emissions, hemit, his, List.flatten_append]

/-- Whatever a compiled program puts out comes from the text lines of its source, each of them
whole, once and in the order of the lines, however deep it stands in the statements. -/
theorem ofSource_emissions {source : String} {p : Program} (h : Program.ofSource source = .ok p) :
    ∃ t outputs, Template.ofSource source = .ok t ∧ (t.lines.map Line.number).Pairwise (· < ·) ∧
      textOutputs t.lineCount t.lines = .ok outputs ∧
      emissionsOf p.instructions = outputs.flatten := by
  obtain ⟨t, ht, form, _⟩ := ofSource_eq_ok_iff.1 h
  obtain ⟨outputs, houtputs, hemit⟩ := form.emissions
  obtain ⟨blocks, hrun, _⟩ := Reader.ofSource_eq_ok_iff.1 ht
  exact ⟨t, outputs, ht, (Reader.run_ordered hrun).1, houtputs, hemit⟩

theorem ofSource_branches :
    Program.ofSource "@\x7b\nif (a) \x7b\n@b\n\x7d else\nno\n\x7d" =
      .ok ⟨[.choose 2 (.test (.path ["a"]) [.value 3 (.path ["b"]), .newline 3]
        (.otherwise [.literal 5 "no", .newline 5]))], .lf⟩ := by
  have hlines : linesOf "@\x7b\nif (a) \x7b\n@b\n\x7d else\nno\n\x7d" =
      [['@', '{'], "if (a) \x7b".toList, ['@', 'b'], "\x7d else".toList, ['n', 'o'], ['}']] := by decide
  have ht : Template.ofSource "@\x7b\nif (a) \x7b\n@b\n\x7d else\nno\n\x7d" =
      .ok ⟨[.code 2 "if (a) \x7b" 0, .text 3 [.reference ["b"]] (some 0), .code 4 "\x7d else" 0,
        .text 5 [.literal "no"] (some 0)], 6, .lf⟩ := by
    refine Reader.ofSource_eq_ok_iff.2 ⟨1, ?_, by decide, by decide⟩
    rw [hlines]
    cbv
  exact bind_eq_ok_iff.2 ⟨_, ht, by cbv⟩

/-- Text in both branches of an `if`, the second of them without braces. -/
theorem ofSource_emissions_branches :
    ∃ t outputs, Template.ofSource "@\x7b\nif (a) \x7b\n@b\n\x7d else\nno\n\x7d" = .ok t ∧
      (t.lines.map Line.number).Pairwise (· < ·) ∧ textOutputs t.lineCount t.lines = .ok outputs ∧
      outputs.flatten = [.value 3 (.path ["b"]), .newline 3, .literal 5 "no", .newline 5] := by
  obtain ⟨t, outputs, ht, hsorted, houtputs, hemit⟩ := ofSource_emissions ofSource_branches
  exact ⟨t, outputs, ht, hsorted, houtputs, hemit.symm⟩

end MailTemplate
