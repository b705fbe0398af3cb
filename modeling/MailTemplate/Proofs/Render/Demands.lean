import MailTemplate.Proofs.Render.Failure
import MailTemplate.Proofs.Render.Invariants
import MailTemplate.Proofs.Render.Missing

/-!
# What instructions demand

The expressions that instructions evaluate with their parts required, with the state in which they do
(`Instruction.Demands`). Where such an expression fails, or one that it is evaluated for, so does the instruction
(`Instruction.Demands.fails`).
-/

namespace MailTemplate

open Run

/-- A change is made of the value of the expression. -/
inductive Change.Demands : Change → Nat → Expr → Prop
  | declare {line name e} : Demands (.declare line name (some e)) line e
  | assign {line name op e} : Demands (.assign line name op e) line e

/-- The instruction, run from the first state on, evaluates the expression on the line in the second one, with its
parts required. What is demanded within a body is demanded by the instructions there. -/
inductive Instruction.Demands (o : RenderOptions) (rounds : Nat) :
    Instruction → Machine → Nat → Expr → Machine → Prop
  | value {line e m} : Demands o rounds (.value line e) m line e m
  | change {c line e m} : c.Demands line e → Demands o rounds (.change c) m line e m
  | forEach {line name e body m} : Demands o rounds (.forEach line name e body) m line e m
  | init {line init test step body n e m} : init.Demands n e →
      Demands o rounds (.forLoop line (some init) test step body) m n e m.push
  | step {line init test step body n e m m₁ m₂ m₃ m₄ m₅} :
      init.forM (·.exec o) m.push = .ok () m₁ →
      Rounds (headTest o line test) (forRound o rounds line (some step) body) m₁ m₂ →
      headTest o line test m₂ = .ok true m₃ → tick o line m₃ = .ok () m₄ →
      inScope (execAll o rounds body) m₄ = .ok () m₅ → step.Demands n e →
      Demands o rounds (.forLoop line init test (some step) body) m n e m₅

variable {o : RenderOptions} {rounds line : Nat} {i : Instruction} {c : Change} {e : Expr} {m m' : Machine}
  {err : RuntimeError}

theorem Change.Demands.mem (h : c.Demands line e) : e ∈ c.exprs := by
  cases h <;> exact List.mem_cons_self

theorem Change.Demands.fails (h : c.Demands line e) (he : Run.eval o line .required e m = .error (.error err) m') :
    Fails err (fun _ => c.exec o) m := by
  have herror : Fails err (fun _ => Run.eval o line .required e) m := .of_error he
  cases h with
  | declare => exact herror.bind_left
  | assign => exact herror.bind_left

/-- An instruction fails where what it demands fails. -/
theorem Instruction.Demands.fails (h : i.Demands o rounds m line e m')
    (he : e.eval o.strict m'.env line .required = .error err) : Fails err (i.exec o ·) m := by
  have herror : Run.eval o line .required e m' = .error (.error err) m' := by
    unfold Run.eval
    rw [he]
  cases h with
  | value =>
      simp only [Instruction.exec]
      exact (Fails.of_error herror).bind_left
  | change hc =>
      simp only [Instruction.exec]
      exact hc.fails herror
  | forEach =>
      simp only [Instruction.exec_forEach]
      exact (Fails.of_error herror).bind_left
  | init hinit =>
      simp only [Instruction.exec_forLoop]
      exact (hinit.fails herror).bind_left.inScope
  | @step n _ test step body _ _ _ _ _ _ _ _ hinit hrounds htest htick hbody hstep =>
      simp only [Instruction.exec_forLoop]
      have hscope : Succeeds (fun k => inScope (execAll o k body)) _ () _ :=
        .of_extends hbody fun k hk => (execAll_extends hk body).inScope
      have hround : Fails err (forRound o · n (some step) body) _ :=
        .bind_right (.of_ok htick) (.bind_right hscope (hstep.fails herror))
      exact .inScope (.bind_right (.of_ok hinit) (.loop (fun k hk => forRound_extends hk) hrounds htest hround))

/-- What is demanded is an expression of the instruction, and an invariant of the variables holds there. -/
theorem Environment.Invariant.of_demands {E : Environment → Prop} {X : Expr → Prop} {V : Value → Prop}
    (hE : Environment.Invariant E X V) (hm : E m.env) (hX : ∀ e ∈ i.exprs, X e)
    (h : i.Demands o rounds m line e m') : E m'.env ∧ X e := by
  cases h with
  | value => exact ⟨hm, hX e List.mem_cons_self⟩
  | change hc => exact ⟨hm, hX e hc.mem⟩
  | forEach => exact ⟨hm, hX e List.mem_cons_self⟩
  | init hinit => exact ⟨hE.push hm, hX e (List.mem_append_left _ hinit.mem)⟩
  | @step n _ test step body _ _ _ m₁ m₂ m₃ m₄ _ hinit hrounds htest htick hbody hstep =>
      rw [Instruction.exprs, List.forall_mem_append, List.forall_mem_append, List.forall_mem_append] at hX
      obtain ⟨hinitX, _, hstepX, hbodyX⟩ := hX
      have hm₁ : E m₁.env := ((hE.changes hinitX).of_ok (hE.push hm) hinit).2
      have hm₂ : E m₂.env := hrounds.maintained hm₁ (headTest_maintains test) (hE.forRound hstepX hbodyX)
      have hm₃ : E m₃.env := ((headTest_maintains test).of_ok hm₂ htest).2
      have hm₄ : E m₄.env := (tick_maintains.of_ok hm₃ htick).2
      exact ⟨((hE.inScope (hE.execAll hbodyX)).of_ok hm₄ hbody).2, hstepX e hstep.mem⟩

end MailTemplate
