import MailTemplate.Proofs.Grammar.Statement

/-!
# Other line numbers

Instructions and pieces with the line numbers that `f` gives.
-/

namespace MailTemplate

variable (f : Nat → Nat)

def Change.renumber : Change → Change
  | declare line name value => declare (f line) name value
  | assign line name op value => assign (f line) name op value

mutual

def Instruction.renumber : Instruction → Instruction
  | .literal line text => .literal (f line) text
  | .value line e => .value (f line) e
  | .newline line => .newline (f line)
  | .change c => .change (c.renumber f)
  | .choose line arms => .choose (f line) arms.renumber
  | .forLoop line init test step body =>
      .forLoop (f line) (init.map (Change.renumber f)) test (step.map (Change.renumber f))
        (renumberAll body)
  | .forEach line name e body => .forEach (f line) name e (renumberAll body)
  | .whileLoop line test body => .whileLoop (f line) test (renumberAll body)
  | .scope line body => .scope (f line) (renumberAll body)

def renumberAll : List Instruction → List Instruction
  | [] => []
  | i :: is => i.renumber :: renumberAll is

def Arms.renumber : Arms → Arms
  | .done => .done
  | .otherwise body => .otherwise (renumberAll body)
  | .test e body next => .test e (renumberAll body) next.renumber

end

def Piece.renumber : Piece → Piece
  | token line t => token (f line) t
  | text line output => text (f line) (renumberAll f output)

def ForHead.renumber (head : ForHead) : ForHead :=
  ⟨head.init.map (Change.renumber f), head.test, head.step.map (Change.renumber f)⟩

@[simp]
theorem Piece.renumber_token (l : Nat) (t : Token) : (token l t).renumber f = token (f l) t := rfl

theorem renumberAll_append (is js : List Instruction) :
    renumberAll f (is ++ js) = renumberAll f is ++ renumberAll f js := by
  induction is with
  | nil => rfl
  | cons i is ih => simp [renumberAll, ih]

theorem renumberAll_eq_map (is : List Instruction) : renumberAll f is = is.map (Instruction.renumber f) := by
  induction is with
  | nil => rfl
  | cons i is ih => rw [renumberAll, ih, List.map_cons]

theorem StartsWith.of_renumber {t : Token} {ps : List Piece}
    (h : StartsWith t (ps.map (Piece.renumber f))) : StartsWith t ps := by
  obtain ⟨l, rest, he⟩ := h
  match ps, he with
  | .token m u :: ps, he =>
      cases he
      exact ⟨m, ps, rfl⟩

end MailTemplate
