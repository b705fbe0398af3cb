import MailTemplate.Proofs.Compile.Lines
import MailTemplate.Proofs.Template.References

/-!
# What all compiled instructions have

A property of instructions that goes over from their parts to the whole, whatever the grammar lets the parts be,
holds of every compiled program (`ofSource_compositional`).
-/

namespace MailTemplate

/-- `P` holds of instructions when it holds of their parts, and likewise `Q` of the arms of a choice. -/
structure Compositional (P : List Instruction → Prop) (Q : Arms → Prop) : Prop where
  nil : P []
  append {is js} : P is → P js → P (is ++ js)
  literal {line text} : P [.literal line text]
  newline {line} : P [.newline line]
  reference {line path} : path ≠ [] → P [.value line (.path path)]
  expression {line cs e} : Expr.ofText line cs = .ok e → P [.value line e]
  change {ps c} : ChangeForm ps c → P [.change c]
  choose {line arms} : Q arms → P [.choose line arms]
  forLoop {line ps head is} : ForHeadForm ps head → P is →
    P [.forLoop line head.init head.test head.step is]
  forEach {line ps name e is} : ForEachHeadForm ps (name, e) → P is → P [.forEach line name e is]
  whileLoop {line ps e is} : ConditionForm ps e → P is → P [.whileLoop line e is]
  scope {line is} : P is → P [.scope line is]
  done : Q .done
  otherwise {is} : P is → Q (.otherwise is)
  test {ps e is arms} : ConditionForm ps e → P is → Q arms → Q (.test e is arms)

variable {P : List Instruction → Prop} {Q : Arms → Prop}

/-! ## Statements -/

/-- `P` holds of what the piece puts out if it is a text line. -/
def Piece.OutputHas (P : List Instruction → Prop) : Piece → Prop
  | token .. => True
  | text _ output => P output

mutual

theorem StatementForm.compositional {d : Bool} {ps : List Piece} {is : List Instruction}
    (h : Compositional P Q) (form : StatementForm d ps is) (hps : ∀ p ∈ ps, p.OutputHas P) : P is := by
  match form with
  | .text l output => exact hps _ List.mem_cons_self
  | .empty l => exact h.nil
  | .change l form => exact h.change form
  | .scope l l' form =>
      simp only [List.cons_append, List.forall_mem_cons, List.forall_mem_append] at hps
      exact h.scope (form.compositional h hps.2.1)
  | .choice l form =>
      rw [List.forall_mem_cons] at hps
      exact h.choose (form.compositional h hps.2)
  | .forLoop l headForm form =>
      rw [List.forall_mem_append] at hps
      exact h.forLoop headForm (form.compositional h hps.2)
  | .forEach l headForm form =>
      rw [List.forall_mem_append] at hps
      exact h.forEach headForm (form.compositional h hps.2)
  | .whileLoop l testForm form =>
      rw [List.forall_mem_append] at hps
      exact h.whileLoop testForm (form.compositional h hps.2)

theorem StatementsForm.compositional {ps : List Piece} {is : List Instruction} (h : Compositional P Q)
    (form : StatementsForm ps is) (hps : ∀ p ∈ ps, p.OutputHas P) : P is := by
  match form with
  | .nil => exact h.nil
  | .cons first more =>
      rw [List.forall_mem_append] at hps
      exact h.append (first.compositional h hps.1) (more.compositional h hps.2)

theorem BodyForm.compositional {d : Bool} {ps : List Piece} {is : List Instruction}
    (h : Compositional P Q) (form : BodyForm d ps is) (hps : ∀ p ∈ ps, p.OutputHas P) : P is := by
  match form with
  | .braced l l' form =>
      simp only [List.cons_append, List.forall_mem_cons, List.forall_mem_append] at hps
      exact form.compositional h hps.2.1
  | .single form _ => exact form.compositional h hps

theorem ArmsForm.compositional {d : Bool} {ps : List Piece} {arms : Arms} (h : Compositional P Q)
    (form : ArmsForm d ps arms) (hps : ∀ p ∈ ps, p.OutputHas P) : Q arms := by
  match form with
  | .last testForm form =>
      rw [List.forall_mem_append] at hps
      exact h.test testForm (form.compositional h hps.2) h.done
  | .otherwise l testForm form otherForm _ =>
      simp only [List.forall_mem_append, List.forall_mem_cons] at hps
      exact h.test testForm (form.compositional h hps.1.2) (h.otherwise (otherForm.compositional h hps.2.2))
  | .next l l' testForm form nextForm =>
      simp only [List.forall_mem_append, List.forall_mem_cons] at hps
      exact h.test testForm (form.compositional h hps.1.2) (nextForm.compositional h hps.2.2.2)

end

/-! ## Lines -/

namespace Compositional

variable (h : Compositional P Q) {lineCount : Nat}

include h

theorem of_fragment {number : Nat} {f : Fragment} {i : Instruction}
    (hf : ∀ path, f = .reference path → path ≠ []) (hi : f.toInstruction number = .ok i) : P [i] := by
  cases f with
  | literal text =>
      cases hi
      exact h.literal
  | reference path =>
      cases hi
      exact h.reference (hf path rfl)
  | expression text =>
      obtain ⟨e, he, rfl⟩ := map_eq_ok_iff.1 hi
      exact h.expression he

theorem of_fragments {number : Nat} {fs : List Fragment} {is : List Instruction}
    (hfs : ∀ path, .reference path ∈ fs → path ≠ [])
    (his : List.Forall₂ (fun f i => Fragment.toInstruction number f = .ok i) fs is) : P is := by
  induction his with
  | nil => exact h.nil
  | cons hi _ ih =>
      refine h.append (h.of_fragment ?_ hi) (ih fun path hpath => hfs path (List.mem_cons_of_mem _ hpath))
      rintro path rfl
      exact hfs path List.mem_cons_self

theorem of_text {number : Nat} {fs : List Fragment} {isLast : Bool} {output : List Instruction}
    (hfs : ∀ path, .reference path ∈ fs → path ≠ [])
    (houtput : textInstructions number fs isLast = .ok output) : P output := by
  obtain ⟨is, his, houtput⟩ := bind_eq_ok_iff.1 houtput
  have hP := h.of_fragments hfs (mapM_eq_ok_iff.1 his)
  cases houtput
  cases isLast with
  | true => exact hP
  | false => exact h.append hP h.newline

theorem of_pieces {l : Line} {ps : List Piece} (hl : l.Named) (hps : l.pieces lineCount = .ok ps) :
    ∀ p ∈ ps, p.OutputHas P := by
  cases l with
  | text number fs b =>
      obtain ⟨output, houtput, rfl⟩ := pieces_text.1 hps
      exact List.forall_mem_singleton.2 (h.of_text hl houtput)
  | code number text b =>
      rw [Line.pieces, Piece.ofCode] at hps
      split at hps
      · cases hps
        intro p hp
        obtain ⟨t, _, rfl⟩ := List.mem_map.1 hp
        trivial
      · cases hps

theorem of_piecesOf {ls : List Line} {pss : List (List Piece)} (hls : ∀ l ∈ ls, l.Named)
    (hpss : PiecesOf lineCount ls pss) : ∀ p ∈ pss.flatten, p.OutputHas P := by
  induction hpss with
  | nil => exact List.forall_mem_nil _
  | cons hps _ ih =>
      obtain ⟨hl, hls⟩ := List.forall_mem_cons.1 hls
      exact List.forall_mem_append.2 ⟨h.of_pieces hl hps, ih hls⟩

theorem of_lines {ls : List Line} {is : List Instruction} (form : LinesForm lineCount ls is)
    (hls : ∀ l ∈ ls, l.Named) : P is := by
  induction form with
  | nil => exact h.nil
  | text houtput _ ih =>
      obtain ⟨hl, hls⟩ := List.forall_mem_cons.1 hls
      exact h.append (h.of_text hl houtput) (ih hls)
  | block _ hpss form _ _ ih =>
      obtain ⟨hms, hls⟩ := List.forall_mem_append.1 hls
      exact h.append (form.compositional h (h.of_piecesOf hms hpss)) (ih hls)

end Compositional

theorem ofSource_compositional (h : Compositional P Q) {source : String} {p : Program}
    (hp : Program.ofSource source = .ok p) : P p.instructions := by
  obtain ⟨t, ht, form, _⟩ := ofSource_eq_ok_iff.1 hp
  exact h.of_lines form (Reader.ofSource_reference ht)

end MailTemplate
