import MailTemplate.Instruction.Parser
import MailTemplate.Proofs.Grammar.Expr
import MailTemplate.Proofs.Grammar.Reads

/-!
# The grammar of statements

Which pieces make up which statements of a code block. A text line is a statement. Each instruction
has the line of its first token.

The flag of a statement, a body or the arms of a choice tells whether they end with an `if` that
could take an `else` behind them. What stands before an `else` must not end so, which leaves every
`else` to the nearest `if` that can take it. A body behind `else` starts with no `if`, so that
`else if` goes on with the same choice.
-/

namespace MailTemplate

/-- Nothing, or something of the given form. -/
inductive OptionForm {α : Type} (form : List Piece → α → Prop) : List Piece → Option α → Prop
  | none : OptionForm form [] none
  | some {ps a} : form ps a → OptionForm form ps (some a)

/-! ## Parts of statements -/

inductive DeclarationForm : List Piece → Change → Prop
  | bare {name} (l l' : Nat) :
      DeclarationForm [.token l (.keyword .var), .token l' (.ident name)] (.declare l name none)
  | value {name ps e} (l l' m : Nat) : ExprForm .expr ps e →
      DeclarationForm
        (.token l (.keyword .var) :: .token l' (.ident name) :: .token m (.symbol .assign) :: ps)
        (.declare l name (some e))

inductive AssignmentForm : List Piece → Change → Prop
  | operand {name ps e} (l l' : Nat) (op : AssignOp) : ExprForm .expr ps e →
      AssignmentForm (.token l (.ident name) :: .token l' (.symbol op.symbol) :: ps)
        (.assign l name op e)
  | increment {name} (l l' : Nat) :
      AssignmentForm [.token l (.ident name), .token l' (.symbol .increment)]
        (.assign l name .add (.number 1))
  | decrement {name} (l l' : Nat) :
      AssignmentForm [.token l (.ident name), .token l' (.symbol .decrement)]
        (.assign l name .sub (.number 1))

inductive ChangeForm : List Piece → Change → Prop
  | declaration {ps c} : DeclarationForm ps c → ChangeForm ps c
  | assignment {ps c} : AssignmentForm ps c → ChangeForm ps c

inductive ConditionForm : List Piece → Expr → Prop
  | mk {ps e} (l l' : Nat) : ExprForm .expr ps e →
      ConditionForm (.token l (.symbol .openParen) :: ps ++ [.token l' (.symbol .closeParen)]) e

inductive ForHeadForm : List Piece → ForHead → Prop
  | mk {ps qs rs init test step} (l l₁ l₂ l' : Nat) : OptionForm ChangeForm ps init →
      OptionForm (ExprForm .expr) qs test → OptionForm AssignmentForm rs step →
      ForHeadForm
        (.token l (.symbol .openParen) :: ps ++ .token l₁ (.symbol .semicolon) :: qs ++
          .token l₂ (.symbol .semicolon) :: rs ++ [.token l' (.symbol .closeParen)])
        ⟨init, test, step⟩

/-- The optional word `var`. -/
inductive VarForm : List Piece → Prop
  | absent : VarForm []
  | present (l : Nat) : VarForm [.token l (.keyword .var)]

inductive ForEachHeadForm : List Piece → String × Expr → Prop
  | mk {vs name ps e} (l l₁ l₂ l' : Nat) : VarForm vs → ExprForm .expr ps e →
      ForEachHeadForm
        (.token l (.symbol .openParen) :: vs ++ .token l₁ (.ident name) ::
          .token l₂ (.keyword .inside) :: ps ++ [.token l' (.symbol .closeParen)])
        (name, e)

/-! ## Parts of statements are tokens -/

theorem DeclarationForm.isToken {ps : List Piece} {c : Change} (h : DeclarationForm ps c) :
    ps.all Piece.isToken = true := by
  cases h with
  | bare => rfl
  | value _ _ _ form => simp [Piece.isToken, form.isToken]

theorem AssignmentForm.isToken {ps : List Piece} {c : Change} (h : AssignmentForm ps c) :
    ps.all Piece.isToken = true := by
  cases h with
  | operand _ _ _ form => simp [Piece.isToken, form.isToken]
  | increment | decrement => rfl

theorem ChangeForm.isToken {ps : List Piece} {c : Change} (h : ChangeForm ps c) :
    ps.all Piece.isToken = true := by
  cases h with
  | declaration form => exact form.isToken
  | assignment form => exact form.isToken

theorem OptionForm.isToken {α : Type} {form : List Piece → α → Prop} {ps : List Piece} {o : Option α}
    (h : OptionForm form ps o) (hform : ∀ a, form ps a → ps.all Piece.isToken = true) :
    ps.all Piece.isToken = true := by
  cases h with
  | none => rfl
  | some form => exact hform _ form

theorem ConditionForm.isToken {ps : List Piece} {e : Expr} (h : ConditionForm ps e) :
    ps.all Piece.isToken = true := by
  cases h with
  | mk _ _ form => simp [Piece.isToken, form.isToken]

theorem ForHeadForm.isToken {ps : List Piece} {head : ForHead} (h : ForHeadForm ps head) :
    ps.all Piece.isToken = true := by
  cases h with
  | mk _ _ _ _ init test step =>
      have hinit := init.isToken fun _ => ChangeForm.isToken
      have htest := test.isToken fun _ => ExprForm.isToken
      have hstep := step.isToken fun _ => AssignmentForm.isToken
      simp [Piece.isToken, hinit, htest, hstep]

theorem ForEachHeadForm.isToken {ps : List Piece} {head : String × Expr} (h : ForEachHeadForm ps head) :
    ps.all Piece.isToken = true := by
  cases h with
  | mk _ _ _ _ var form =>
      cases var <;> simp [Piece.isToken, form.isToken]

/-! ## Statements -/

mutual

inductive StatementsForm : List Piece → List Instruction → Prop
  | nil : StatementsForm [] []
  | cons {d ps qs is js} : StatementForm d ps is → StatementsForm qs js →
      StatementsForm (ps ++ qs) (is ++ js)

/-- `StatementForm d ps is`: the pieces `ps` are a statement that means the instructions `is`. -/
inductive StatementForm : Bool → List Piece → List Instruction → Prop
  | text (l : Nat) (output : List Instruction) : StatementForm false [.text l output] output
  | empty (l : Nat) : StatementForm false [.token l (.symbol .semicolon)] []
  | scope {ps is} (l l' : Nat) : StatementsForm ps is →
      StatementForm false
        (.token l (.symbol .openBrace) :: ps ++ [.token l' (.symbol .closeBrace)]) [.scope l is]
  | change {ps c} (l : Nat) : ChangeForm ps c →
      StatementForm false (ps ++ [.token l (.symbol .semicolon)]) [.change c]
  | choice {d ps arms} (l : Nat) : ArmsForm d ps arms →
      StatementForm d (.token l (.keyword .ifThen) :: ps) [.choose l arms]
  | forLoop {d ps qs head is} (l : Nat) : ForHeadForm ps head → BodyForm d qs is →
      StatementForm d (.token l (.keyword .forLoop) :: ps ++ qs)
        [.forLoop l head.init head.test head.step is]
  | forEach {d ps qs name e is} (l : Nat) : ForEachHeadForm ps (name, e) → BodyForm d qs is →
      StatementForm d (.token l (.keyword .forEach) :: ps ++ qs) [.forEach l name e is]
  | whileLoop {d ps qs e is} (l : Nat) : ConditionForm ps e → BodyForm d qs is →
      StatementForm d (.token l (.keyword .whileLoop) :: ps ++ qs) [.whileLoop l e is]

/-- Statements in braces, or one statement that does not start with a brace. -/
inductive BodyForm : Bool → List Piece → List Instruction → Prop
  | braced {ps is} (l l' : Nat) : StatementsForm ps is →
      BodyForm false
        (.token l (.symbol .openBrace) :: ps ++ [.token l' (.symbol .closeBrace)]) is
  | single {d ps is} : StatementForm d ps is → ¬ StartsWith (.symbol .openBrace) ps →
      BodyForm d ps is

/-- What stands behind the first `if` of a choice. -/
inductive ArmsForm : Bool → List Piece → Arms → Prop
  | last {d ps qs e is} : ConditionForm ps e → BodyForm d qs is →
      ArmsForm true (ps ++ qs) (.test e is .done)
  | otherwise {d ps qs rs e is js} (l : Nat) : ConditionForm ps e → BodyForm false qs is →
      BodyForm d rs js → ¬ StartsWith (.keyword .ifThen) rs →
      ArmsForm d (ps ++ qs ++ .token l (.keyword .orElse) :: rs) (.test e is (.otherwise js))
  | next {d ps qs rs e is arms} (l l' : Nat) : ConditionForm ps e → BodyForm false qs is →
      ArmsForm d rs arms →
      ArmsForm d (ps ++ qs ++ .token l (.keyword .orElse) :: .token l' (.keyword .ifThen) :: rs)
        (.test e is arms)

end

end MailTemplate
