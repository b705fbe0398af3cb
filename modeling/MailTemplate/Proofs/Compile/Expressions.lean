import MailTemplate.Proofs.Compile.Parts
import MailTemplate.Proofs.Grammar.ExprPrinter
import MailTemplate.Proofs.Render.Interpreter

/-!
# The expressions of compiled programs

Every expression of a compiled program has one of the shapes that are read, so that every path in it names
something (`ofSource_proper`).
-/

namespace MailTemplate

theorem exprsOf_append (is js : List Instruction) : exprsOf (is ++ js) = exprsOf is ++ exprsOf js := by
  induction is with
  | nil => rfl
  | cons i is ih => rw [List.cons_append, exprsOf, exprsOf, ih, List.append_assoc]

theorem exprsOf_singleton (i : Instruction) : exprsOf [i] = i.exprs := List.append_nil _

theorem AssignmentForm.proper {ps : List Piece} {c : Change} (h : AssignmentForm ps c) :
    ∀ e ∈ c.exprs, e.Proper := by
  cases h with
  | operand _ _ _ form => exact List.forall_mem_singleton.2 (Expr.proper_of_form form)
  | increment | decrement => exact List.forall_mem_singleton.2 trivial

theorem ChangeForm.proper {ps : List Piece} {c : Change} (h : ChangeForm ps c) :
    ∀ e ∈ c.exprs, e.Proper := by
  cases h with
  | assignment form => exact form.proper
  | declaration form =>
      cases form with
      | bare => exact List.forall_mem_nil _
      | value _ _ _ form => exact List.forall_mem_singleton.2 (Expr.proper_of_form form)

theorem OptionForm.proper {form : List Piece → Change → Prop} {ps : List Piece} {c : Option Change}
    (h : OptionForm form ps c) (hform : ∀ {ps c}, form ps c → ∀ e ∈ c.exprs, e.Proper) :
    ∀ e ∈ c.elim [] Change.exprs, e.Proper := by
  cases h with
  | none => exact List.forall_mem_nil _
  | some h => exact hform h

theorem ForHeadForm.proper {ps : List Piece} {head : ForHead} (h : ForHeadForm ps head) :
    (∀ e ∈ head.init.elim [] Change.exprs, e.Proper) ∧ (∀ e ∈ head.test.toList, e.Proper) ∧
      ∀ e ∈ head.step.elim [] Change.exprs, e.Proper := by
  obtain ⟨_, _, _, _, init, test, step⟩ := h
  refine ⟨init.proper ChangeForm.proper, ?_, step.proper AssignmentForm.proper⟩
  cases test with
  | none => exact List.forall_mem_nil _
  | some form => exact List.forall_mem_singleton.2 (Expr.proper_of_form form)

theorem ConditionForm.proper {ps : List Piece} {e : Expr} (h : ConditionForm ps e) : e.Proper := by
  cases h with
  | mk _ _ form => exact Expr.proper_of_form form

theorem ForEachHeadForm.proper {ps : List Piece} {name : String} {e : Expr}
    (h : ForEachHeadForm ps (name, e)) : e.Proper := by
  cases h with
  | mk _ _ _ _ _ form => exact Expr.proper_of_form form

theorem Expr.proper_of_ofText {line : Nat} {cs : List Char} {e : Expr} (h : ofText line cs = .ok e) :
    e.Proper := by
  cases htokens : tokens cs with
  | error cause =>
      rw [ofText, Piece.ofCode, htokens] at h
      cases h
  | ok ts => exact proper_of_form ((ofText_eq_ok_iff line htokens).1 h)

theorem compositional_proper :
    Compositional (fun is => ∀ e ∈ exprsOf is, e.Proper) (fun arms => ∀ e ∈ arms.exprs, e.Proper) where
  nil := List.forall_mem_nil _
  append his hjs := by
    rw [exprsOf_append]
    exact List.forall_mem_append.2 ⟨his, hjs⟩
  literal := List.forall_mem_nil _
  newline := List.forall_mem_nil _
  reference hpath := List.forall_mem_singleton.2 hpath
  expression htext := List.forall_mem_singleton.2 (Expr.proper_of_ofText htext)
  change form := by
    rw [exprsOf_singleton, Instruction.exprs]
    exact form.proper
  choose harms := by rwa [exprsOf_singleton, Instruction.exprs]
  forLoop headForm his := by
    obtain ⟨hinit, htest, hstep⟩ := headForm.proper
    rw [exprsOf_singleton, Instruction.exprs]
    simp only [List.forall_mem_append]
    exact ⟨hinit, htest, hstep, his⟩
  forEach headForm his := by
    rw [exprsOf_singleton, Instruction.exprs]
    exact List.forall_mem_cons.2 ⟨headForm.proper, his⟩
  whileLoop testForm his := by
    rw [exprsOf_singleton, Instruction.exprs]
    exact List.forall_mem_cons.2 ⟨testForm.proper, his⟩
  scope his := by rwa [exprsOf_singleton, Instruction.exprs]
  done := List.forall_mem_nil _
  otherwise his := his
  test testForm his harms :=
    List.forall_mem_cons.2 ⟨testForm.proper, List.forall_mem_append.2 ⟨his, harms⟩⟩

theorem ofSource_proper {source : String} {p : Program} (hp : Program.ofSource source = .ok p) :
    ∀ e ∈ exprsOf p.instructions, e.Proper :=
  ofSource_compositional compositional_proper hp

end MailTemplate
