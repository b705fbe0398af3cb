import MailTemplate.Proofs.Render.Interpreter

/-!
# Where errors and warnings of a render are

An evaluation fails and warns on its own line alone (`Expr.eval_onLine`), and a render on the lines of the
program's instructions (`Program.outcome_on`).
-/

namespace MailTemplate

/-! ## Evaluations -/

namespace Checked

variable {α β : Type} {line : Nat} {x : Checked α} {f : α → Checked β}

/-- The evaluation fails or warns, if at all, on the given line. -/
def OnLine (line : Nat) (x : Checked α) : Prop :=
  match x with
  | .ok (_, ws) => ∀ w ∈ ws, w.line = line
  | .error e => e.line = line

theorem onLine_pure {a : α} : OnLine line (pure a : Checked α) := List.forall_mem_nil _

theorem onLine_fail {cause : FaultCause} : OnLine line (fail line cause : Checked α) := rfl

theorem onLine_ofExcept {r : Except FaultCause α} : OnLine line (ofExcept line r) := by
  cases r with
  | ok a => exact onLine_pure
  | error cause => exact onLine_fail

theorem OnLine.bind (hx : OnLine line x) (hf : ∀ a, OnLine line (f a)) : OnLine line (x >>= f) := by
  rcases x with e | ⟨a, ws⟩
  · exact hx
  · have hfa := hf a
    simp only [Bind.bind]
    generalize f a = y at hfa ⊢
    rcases y with e | ⟨b, ws'⟩
    · exact hfa
    · exact List.forall_mem_append.2 ⟨hx, hfa⟩

theorem OnLine.ite {c : Prop} [Decidable c] {y : Checked α} (hx : OnLine line x) (hy : OnLine line y) :
    OnLine line (if c then x else y) := by
  split
  · exact hx
  · exact hy

end Checked

open Checked

theorem BinaryOp.eval_onLine {strict : Bool} {line : Nat} {op : BinaryOp} {l r : Value} :
    OnLine line (op.eval strict line l r) := by
  unfold BinaryOp.eval
  split
  · exact onLine_fail
  · intro w hw
    cases strict with
    | false => cases hw
    | true =>
        rw [if_pos rfl, Option.mem_toList] at hw
        obtain ⟨cause, _, rfl⟩ := Option.map_eq_some_iff.1 hw
        rfl

theorem Expr.eval_onLine (strict : Bool) (env : Environment) (line : Nat) (mode : Resolution) (e : Expr) :
    OnLine line (e.eval strict env line mode) := by
  induction e generalizing mode with
  | number | string | bool | null => exact onLine_pure
  | path segments =>
      cases segments with
      | nil => exact onLine_pure
      | cons root rest =>
          simp only [eval]
          split
          · exact onLine_ofExcept
          · exact onLine_pure
          · exact onLine_fail
  | member base name ih =>
      rw [eval]
      exact (ih mode).bind fun _ => onLine_ofExcept
  | index base position ih ihPosition =>
      rw [eval]
      exact (ih mode).bind fun _ => (ihPosition mode).bind fun _ => onLine_ofExcept
  | unary op e ih =>
      cases op with
      | not =>
          rw [eval]
          exact (ih mode).bind fun _ => onLine_pure
      | neg =>
          rw [eval]
          refine (ih mode).bind fun v => ?_
          split
          · exact onLine_pure
          · exact onLine_fail
  | binary op l r ihLeft ihRight =>
      cases op with
      | andAlso =>
          rw [eval]
          exact (ihLeft mode).bind fun _ => .ite ((ihRight mode).bind fun _ => onLine_pure) onLine_pure
      | orElse =>
          rw [eval]
          exact (ihLeft mode).bind fun _ => .ite onLine_pure ((ihRight mode).bind fun _ => onLine_pure)
      | _ =>
          rw [eval]
          · exact (ihLeft mode).bind fun _ => (ihRight mode).bind fun _ => BinaryOp.eval_onLine
          all_goals rintro ⟨⟩
  | cond test yes no ihTest ihYes ihNo =>
      rw [eval]
      exact (ihTest .optional).bind fun _ => .ite (ihYes mode) (ihNo mode)

/-! ## Runs -/

/-- All warnings so far are on lines in `L`. -/
def Machine.WarnsOn (L : Nat → Prop) (m : Machine) : Prop := ∀ w ∈ m.warnings, L w.line

theorem Machine.WarnsOn.append {L : Nat → Prop} {m : Machine} {line : Nat} {ws : List Warning}
    (hm : m.WarnsOn L) (hline : L line) (hws : ∀ w ∈ ws, w.line = line) :
    Machine.WarnsOn L { m with warnings := m.warnings ++ ws } := by
  intro w hw
  rw [← Array.mem_toList_iff, Array.toList_appendList, List.mem_append] at hw
  rcases hw with hw | hw
  · exact hm w (Array.mem_toList_iff.1 hw)
  · rw [hws w hw]
    exact hline

/-- A result in `Q` with all warnings on lines in `L`, or an error on such a line. -/
inductive EndsOn {α : Type} (L : Nat → Prop) (Q : α → Prop) : EStateM.Result Halt Machine α → Prop
  | ok {a m} : Q a → m.WarnsOn L → EndsOn L Q (.ok a m)
  | error {e m} : L e.line → EndsOn L Q (.error (.error e) m)
  | unfinished {m} : EndsOn L Q (.error .unfinished m)

def StaysOn {α : Type} (L : Nat → Prop) (Q : α → Prop) (x : Run α) : Prop :=
  ∀ m : Machine, m.WarnsOn L → EndsOn L Q (x m)

namespace StaysOn

variable {α β : Type} {L : Nat → Prop} {Q : α → Prop} {Q' : β → Prop} {x : Run α} {f : α → Run β}
  {o : RenderOptions} {line : Nat}

theorem pure {a : α} (ha : Q a) : StaysOn L Q (pure a : Run α) := fun _ hm => .ok ha hm

theorem fail (hline : L line) (cause : FaultCause) : StaysOn L Q (Run.fail line cause : Run α) :=
  fun _ _ => .error hline

theorem bind (hx : StaysOn L Q x) (hf : ∀ a, Q a → StaysOn L Q' (f a)) : StaysOn L Q' (x >>= f) := by
  intro m hm
  have hends := hx m hm
  change EndsOn L Q' (EStateM.bind x f m)
  unfold EStateM.bind
  generalize x m = r at hends ⊢
  cases hends with
  | ok ha hm => exact hf _ ha _ hm
  | error hline => exact .error hline
  | unfinished => exact .unfinished

theorem emit (c : Chunk) : StaysOn L (fun _ => True) (Run.emit c) := fun _ hm => .ok trivial hm

theorem eval (hline : L line) (mode : Resolution) (e : Expr) :
    StaysOn L (fun _ => True) (Run.eval o line mode e) := by
  intro m hm
  have hon := e.eval_onLine o.strict m.env line mode
  unfold Run.eval
  generalize e.eval o.strict m.env line mode = r at hon ⊢
  rcases r with err | ⟨v, ws⟩
  · exact .error (hon.symm ▸ hline)
  · exact .ok trivial (hm.append hline hon)

theorem test (hline : L line) (e : Expr) : StaysOn L (fun _ => True) (Run.test o line e) :=
  (eval hline .optional e).bind fun _ _ => pure trivial

theorem combine (hline : L line) (op : BinaryOp) (l r : Value) :
    StaysOn L (fun _ => True) (Run.combine o line op l r) := by
  intro m hm
  have hon : OnLine line (op.eval o.strict line l r) := op.eval_onLine
  unfold Run.combine
  generalize op.eval o.strict line l r = r at hon ⊢
  rcases r with err | ⟨v, ws⟩
  · exact .error (hon.symm ▸ hline)
  · exact .ok trivial (hm.append hline hon)

theorem update (hline : L line) (g : Environment → Except FaultCause Environment) :
    StaysOn L (fun _ => True) (Run.update line g) := by
  intro m hm
  unfold Run.update
  split
  · exact .ok trivial hm
  · exact .error hline

theorem tick (hline : L line) : StaysOn L (fun _ => True) (Run.tick o line) := by
  intro m hm
  simp only [Run.tick]
  split
  · split
    · exact .error hline
    · exact .ok trivial hm
  · exact .ok trivial hm

theorem read (hline : L line) (name : String) (rounds : Nat) :
    StaysOn L (fun _ => True) ((Run.interpreter o rounds).read line name) := by
  intro m hm
  rw [Run.interpreter_read]
  cases m.env.lookup name with
  | none => exact .error hline
  | some v => exact .ok trivial hm

theorem inScope {x : Run Unit} (hx : StaysOn L (fun _ => True) x) :
    StaysOn L (fun _ => True) (Run.inScope x) := by
  intro m hm
  have hends := hx { m with env := m.env.push } hm
  unfold Run.inScope
  generalize x { m with env := m.env.push } = r at hends ⊢
  cases hends with
  | ok _ hm => exact .ok trivial hm
  | error hline => exact .error hline
  | unfinished => exact .unfinished

theorem loop {test : Run Bool} {body : Run Unit} (htest : StaysOn L (fun _ => True) test)
    (hbody : StaysOn L (fun _ => True) body) (rounds : Nat) :
    StaysOn L (fun _ => True) (Run.loop test body rounds) := by
  induction rounds with
  | zero => exact fun _ _ => .unfinished
  | succ rounds ih =>
      refine htest.bind fun b _ => ?_
      cases b with
      | false => exact pure trivial
      | true => exact hbody.bind fun _ _ => ih

end StaysOn

/-- Every step fails and warns on its line alone. -/
theorem Run.interpreter_staysOn (o : RenderOptions) (rounds : Nat) (L : Nat → Prop) :
    (Run.interpreter o rounds).RelatedOn (fun Q x _ => StaysOn L Q x) L (fun _ => True) (fun _ => True)
      (fun _ => True) (Run.interpreter o rounds) where
  pure := .pure
  bind := .bind
  write := .emit
  demand _ e hline _ := .eval hline .required e
  test _ e hline _ := .test hline e
  print line v hline _ := by
    simp only [Run.interpreter]
    split
    · exact .fail hline _
    · exact .emit _
  null := trivial
  declare _ name v hline _ := .update hline (·.declare name v)
  read _ name hline _ := .read hline name rounds
  combine _ op l r hline _ _ := .combine hline op l r
  assign _ name v hline _ _ := .update hline (·.assign name v)
  items line v hline _ := by
    simp only [Run.interpreter]
    split
    · exact .fail hline _
    · exact .pure fun _ _ => trivial
  enter _ hline := .tick hline
  take _ name item hline _ := .update hline (·.declare name item)
  inScope := .inScope
  loop _ _ _ _ _ hline htest hbody := .loop htest ((StaysOn.tick hline).bind fun _ _ => hbody) rounds

theorem execAll_staysOn (o : RenderOptions) (rounds : Nat) (is : List Instruction) :
    StaysOn (· ∈ lineNumbersOf is) (fun _ => True) (execAll o rounds is) := by
  rw [execAll_eq_interpretAll]
  exact interpretAll_relatedOn (Run.interpreter_staysOn o rounds _) (fun _ hn => hn) (fun _ _ => trivial)
    fun _ _ => trivial

/-- The error of a render, and each of its warnings, is on the line of an instruction. -/
theorem Program.outcome_on (o : RenderOptions) (rounds : Nat) (p : Program) (model : Value) :
    (∀ e, p.outcome o rounds model = .error (.error e) → e.line ∈ lineNumbersOf p.instructions) ∧
      ∀ r, p.outcome o rounds model = .ok r → ∀ w ∈ r.warnings, w.line ∈ lineNumbersOf p.instructions := by
  have hends : EndsOn (· ∈ lineNumbersOf p.instructions) (fun _ => True) (p.run o rounds model) :=
    execAll_staysOn o rounds p.instructions (initial model) (by simp [Machine.WarnsOn, initial])
  unfold outcome
  generalize p.run o rounds model = r at hends ⊢
  cases hends with
  | ok _ hm =>
      constructor
      · rintro _ ⟨⟩
      · rintro _ ⟨⟩ w hw
        exact hm w (Array.mem_toList_iff.1 hw)
  | error hline =>
      constructor
      · rintro _ ⟨⟩
        exact hline
      · rintro _ ⟨⟩
  | unfinished => constructor <;> rintro _ ⟨⟩

end MailTemplate
