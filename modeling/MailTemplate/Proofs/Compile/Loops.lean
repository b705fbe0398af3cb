import MailTemplate.Proofs.Compile.Parts

/-!
# The steps of compiled loops

The grammar has an assignment as the step of a `for`, if it has one. So no loop of a compiled program
declares anything between its rounds (`ofSource_stepsAssign`).
-/

namespace MailTemplate

def Change.isAssign : Change → Bool
  | declare .. => false
  | assign .. => true

mutual

/-- Every `for` goes on by an assignment. -/
def Instruction.stepsAssign : Instruction → Bool
  | .literal .. | .value .. | .newline _ | .change _ => true
  | .choose _ arms => arms.stepsAssign
  | .forLoop _ _ _ step body => step.all Change.isAssign && stepsAssignAll body
  | .forEach _ _ _ body | .whileLoop _ _ body | .scope _ body => stepsAssignAll body

def Arms.stepsAssign : Arms → Bool
  | .done => true
  | .otherwise body => stepsAssignAll body
  | .test _ body next => stepsAssignAll body && next.stepsAssign

def stepsAssignAll : List Instruction → Bool
  | [] => true
  | i :: is => i.stepsAssign && stepsAssignAll is

end

theorem stepsAssignAll_append (is js : List Instruction) :
    stepsAssignAll (is ++ js) = (stepsAssignAll is && stepsAssignAll js) := by
  induction is with
  | nil => rfl
  | cons i is ih => rw [List.cons_append, stepsAssignAll, stepsAssignAll, ih, Bool.and_assoc]

/-! ## Compiled loops -/

theorem AssignmentForm.isAssign {ps : List Piece} {c : Change} (h : AssignmentForm ps c) :
    c.isAssign = true := by
  cases h <;> rfl

theorem ForHeadForm.isAssign {ps : List Piece} {head : ForHead} (h : ForHeadForm ps head) :
    head.step.all Change.isAssign = true := by
  cases h with
  | mk _ _ _ _ _ _ step =>
      cases step with
      | none => rfl
      | some form => exact form.isAssign

theorem compositional_stepsAssign :
    Compositional (stepsAssignAll · = true) (Arms.stepsAssign · = true) where
  nil := rfl
  append his hjs := by rw [stepsAssignAll_append, his, hjs]; rfl
  literal := rfl
  newline := rfl
  reference _ := rfl
  expression _ := rfl
  change _ := rfl
  choose harms := by simp [stepsAssignAll, Instruction.stepsAssign, harms]
  forLoop headForm his := by simp [stepsAssignAll, Instruction.stepsAssign, headForm.isAssign, his]
  forEach _ his := by simp [stepsAssignAll, Instruction.stepsAssign, his]
  whileLoop _ his := by simp [stepsAssignAll, Instruction.stepsAssign, his]
  scope his := by simp [stepsAssignAll, Instruction.stepsAssign, his]
  done := rfl
  otherwise his := his
  test _ his harms := by simp [Arms.stepsAssign, his, harms]

theorem ofSource_stepsAssign {source : String} {p : Program} (h : Program.ofSource source = .ok p) :
    stepsAssignAll p.instructions = true :=
  ofSource_compositional compositional_stepsAssign h

end MailTemplate
