import MailTemplate.Proofs.Render.Journal

/-!
# Invariants of variables

What the operations on variables keep holds of the variables in every state of a render, whatever its
instructions are: in the states that instructions are run from (`Environment.Invariant.of_executes`), and in all
that the journal shows (`Environment.Invariant.journal`).
-/

namespace MailTemplate

/-- The operations on variables keep `E`, if the values that are declared and assigned are in `V`; these are values
of expressions in `X`, and what is made of such values. -/
structure Environment.Invariant (E : Environment → Prop) (X : Expr → Prop) (V : Value → Prop) : Prop where
  push {env} : E env → E env.push
  pop {env} : E env → E env.pop
  declare {env env' name v} : E env → V v → env.declare name v = .ok env' → E env'
  assign {env env' name v} : E env → V v → env.assign name v = .ok env' → E env'
  lookup {env name v} : E env → env.lookup name = some v → V v
  null : V .null
  appraise {env line e v} : X e → E env → (e.appraise env line .required).result = .ok v → V v
  apply {line a v} : (Application.appraise line a).result = .ok v → V v
  elements {v items} : V v → v.elements? = some items → ∀ item ∈ items, V item

variable {E : Environment → Prop} {X : Expr → Prop} {V : Value → Prop}

/-! ## Steps of runs -/

namespace Run

variable {o : RenderOptions} {line : Nat}

theorem emit_maintains (c : Chunk) : Maintains (E ·.env) (fun _ => True) (emit c) :=
  fun _ hm => .ok trivial hm

theorem conclude_maintains {α : Type} {Q : α → Prop} {r : Environment → Appraisal α}
    (hr : ∀ env, E env → ∀ a, (r env).result = .ok a → Q a) : Maintains (E ·.env) Q (conclude o line r) := by
  intro m hm
  unfold conclude Appraisal.checked
  cases hresult : (r m.env).result with
  | ok a => exact .ok (hr _ hm a hresult) hm
  | error e => exact .error hm

theorem update_maintains {f : Environment → Except FaultCause Environment}
    (hf : ∀ env env', E env → f env = .ok env' → E env') :
    Maintains (E ·.env) (fun _ => True) (update line f) := by
  intro m hm
  unfold update
  cases henv : f m.env with
  | ok env => exact .ok trivial (hf _ _ hm henv)
  | error cause => exact .error hm

theorem tick_maintains : Maintains (E ·.env) (fun _ => True) (tick o line) := by
  intro m hm
  simp only [tick]
  split
  · split
    · exact .error hm
    · exact .ok trivial hm
  · exact .ok trivial hm

theorem loop_maintains {I : Machine → Prop} {test : Run Bool} {body : Run Unit}
    (htest : Maintains I (fun _ => True) test) (hbody : Maintains I (fun _ => True) body) (rounds : Nat) :
    Maintains I (fun _ => True) (loop test body rounds) := by
  induction rounds with
  | zero => exact .throw _
  | succ rounds ih =>
      refine htest.bind fun b _ => ?_
      cases b with
      | false => exact .pure trivial
      | true => exact hbody.bind fun _ _ => ih

theorem test_maintains (e : Expr) : Maintains (E ·.env) (fun _ => True) (test o line e) := by
  have happraise : Maintains (E ·.env) (fun _ => True) (conclude o line (e.appraise · line .optional)) :=
    conclude_maintains fun _ _ _ _ => trivial
  rw [test, eval_eq_conclude]
  exact happraise.bind fun _ _ => .pure trivial

theorem headTest_maintains (test : Option Expr) : Maintains (E ·.env) (fun _ => True) (headTest o line test) := by
  cases test with
  | none => exact .pure trivial
  | some e => exact test_maintains e

theorem Rounds.maintained {I : Machine → Prop} {test : Run Bool} {round : Run Unit} {m m' : Machine} (hm : I m)
    (htest : Maintains I (fun _ => True) test) (hround : Maintains I (fun _ => True) round)
    (h : Rounds test round m m') : I m' := by
  induction h with
  | first => exact hm
  | next htrue hok _ ih => exact ih (hround.of_ok (htest.of_ok hm htrue).2 hok).2

end Run

/-! ## Steps that keep a journal -/

/-- The variables that the event shows are in `E`, and the values in `V`. Operators may well be applied to other
values. -/
def Event.Within (E : Environment → Prop) (V : Value → Prop) : Event → Prop
  | .variables env => E env
  | .printed v | .stored _ v | .iterated v | .bound _ v => V v
  | .written _ | .applied .. | .entered _ => True

structure Journal.Within (E : Environment → Prop) (V : Value → Prop) (j : Journal) : Prop where
  env : E j.env
  events : ∀ e ∈ j.events, e.Within E V

namespace Journal.Within

variable {j : Journal}

theorem initial {model : Value} (h : E (.new model)) : (Journal.initial model).Within E V where
  env := h
  events := List.forall_mem_singleton.2 h

theorem note (h : j.Within E V) {events : List Event} (hevents : ∀ e ∈ events, e.Within E V) :
    (j.note events).Within E V where
  env := h.env
  events := List.forall_mem_append.2 ⟨h.events, hevents⟩

theorem become (h : j.Within E V) {env : Environment} (henv : E env) : (j.become env).Within E V where
  env := henv
  events := List.forall_mem_append.2 ⟨h.events, List.forall_mem_singleton.2 henv⟩

theorem entered {line : Nat} (h : j.Within E V) : (j.note [.entered line]).Within E V :=
  h.note (List.forall_mem_singleton.2 trivial)

end Journal.Within

namespace Journaled

variable {line : Nat}

theorem record_maintains {e : Event} (he : e.Within E V) :
    Maintains (Journal.Within E V) (fun _ => True) (record e) :=
  fun _ hj => .ok trivial (hj.note (List.forall_mem_singleton.2 he))

theorem conclude_maintains {α : Type} {Q : α → Prop} {r : Environment → Appraisal α}
    (hr : ∀ env, E env → ∀ a, (r env).result = .ok a → Q a) :
    Maintains (Journal.Within E V) Q (conclude line r) := by
  intro j hj
  have hnote : (j.note ((r j.env).applications.map (.applied line))).Within E V := by
    refine hj.note fun e he => ?_
    obtain ⟨a, _, rfl⟩ := List.mem_map.1 he
    trivial
  unfold conclude
  cases hresult : (r j.env).result with
  | ok a => exact .ok (hr _ hj.env a hresult) hnote
  | error e => exact .error hnote

theorem update_maintains {f : Environment → Except FaultCause Environment}
    (hf : ∀ env env', E env → f env = .ok env' → E env') :
    Maintains (Journal.Within E V) (fun _ => True) (update line f) := by
  intro j hj
  unfold update
  cases henv : f j.env with
  | ok env => exact .ok trivial (hj.become (hf _ _ hj.env henv))
  | error cause => exact .error hj

end Journaled

/-! ## Runs -/

namespace Environment.Invariant

variable (h : Invariant E X V) {o : RenderOptions} {rounds line : Nat} {m m' : Machine} {model : Value}
  {body : List Instruction}

include h

theorem inScope {x : Run Unit} (hx : Maintains (E ·.env) (fun _ => True) x) :
    Maintains (E ·.env) (fun _ => True) (Run.inScope x) := by
  intro m hm
  have hends := hx { m with env := m.env.push } (h.push hm)
  unfold Run.inScope
  generalize x { m with env := m.env.push } = r at hends ⊢
  cases hends with
  | ok _ hm => exact .ok trivial (h.pop hm)
  | error hm => exact .error (h.pop hm)

theorem demand {e : Expr} (he : X e) : Maintains (E ·.env) V (Run.eval o line .required e) := by
  rw [Run.eval_eq_conclude]
  exact Run.conclude_maintains fun _ henv _ hv => h.appraise he henv hv

theorem declares {name : String} {v : Value} (hv : V v) :
    Maintains (E ·.env) (fun _ => True) (Run.update line (·.declare name v)) :=
  Run.update_maintains fun _ _ henv hdeclare => h.declare henv hv hdeclare

/-- Each step of a run keeps an invariant. -/
theorem interpreter (o : RenderOptions) (rounds : Nat) :
    (Run.interpreter o rounds).Related (fun Q x _ => Maintains (E ·.env) Q x) X V (Run.interpreter o rounds) where
  pure := .pure
  bind := .bind
  write := Run.emit_maintains
  demand _ _ _ he := h.demand he
  test _ e _ _ := Run.test_maintains e
  print line v _ _ := by
    simp only [Run.interpreter]
    split
    · exact .throw _
    · exact Run.emit_maintains _
  null := h.null
  declare _ _ _ _ hv := h.declares hv
  read line name _ _ := by
    intro m hm
    rw [Run.interpreter_read]
    cases hv : m.env.lookup name with
    | none => exact .error hm
    | some v => exact .ok (h.lookup hm hv) hm
  combine line op l r _ _ _ := by
    simp only [Run.interpreter, Run.combine_eq_conclude]
    exact Run.conclude_maintains fun _ _ _ hv => h.apply hv
  assign _ _ _ _ _ hv := Run.update_maintains fun _ _ henv hassign => h.assign henv hv hassign
  items line v _ hv := by
    simp only [Run.interpreter]
    cases hitems : v.elements? with
    | none => exact .throw _
    | some items => exact .pure (h.elements hv hitems)
  enter _ _ := Run.tick_maintains
  take _ _ _ _ hv := h.declares hv
  inScope := h.inScope
  loop _ _ _ _ _ _ htest hbody :=
    Run.loop_maintains htest (Run.tick_maintains.bind fun _ _ => hbody) rounds

/-- Each step that keeps a journal keeps an invariant of all that it has in it. -/
theorem journaled (limit : Option Nat) (rounds : Nat) :
    (Journaled.interpreter limit rounds).Related (fun Q x _ => Maintains (Journal.Within E V) Q x) X V
      (Journaled.interpreter limit rounds) where
  pure := .pure
  bind := .bind
  write _ := Journaled.record_maintains trivial
  demand _ _ _ he := Journaled.conclude_maintains fun _ henv _ hv => h.appraise he henv hv
  test line e _ _ := by
    have happraise : Maintains (Journal.Within E V) (fun _ => True)
        (Journaled.conclude line (e.appraise · line .optional)) :=
      Journaled.conclude_maintains fun _ _ _ _ => trivial
    exact happraise.bind fun _ _ => .pure trivial
  print line v _ hv := by
    simp only [Journaled.interpreter]
    split
    · exact .throw _
    · exact Journaled.record_maintains hv
  null := h.null
  declare _ _ _ _ hv :=
    (Journaled.update_maintains fun _ _ henv hdeclare => h.declare henv hv hdeclare).bind fun _ _ =>
      Journaled.record_maintains hv
  read line name _ _ := by
    intro j hj
    rw [Journaled.interpreter_read]
    cases hv : j.env.lookup name with
    | none => exact .error hj
    | some v => exact .ok (h.lookup hj.env hv) hj
  combine _ _ _ _ _ _ _ := Journaled.conclude_maintains fun _ _ _ hv => h.apply hv
  assign _ _ _ _ _ hv :=
    (Journaled.update_maintains fun _ _ henv hassign => h.assign henv hv hassign).bind fun _ _ =>
      Journaled.record_maintains hv
  items line v _ hv := by
    have hiterated : Maintains (Journal.Within E V) (fun _ => True) (Journaled.record (.iterated v)) :=
      Journaled.record_maintains hv
    simp only [Journaled.interpreter]
    cases hitems : v.elements? with
    | none => exact .throw _
    | some items => exact hiterated.bind fun _ _ => .pure (h.elements hv hitems)
  enter _ _ := Journaled.enter_maintains fun _ hj => hj.entered
  take _ _ _ _ hv :=
    (Journaled.update_maintains fun _ _ henv hdeclare => h.declare henv hv hdeclare).bind fun _ _ =>
      Journaled.record_maintains hv
  inScope := Journaled.inScope_maintains (fun _ hj => hj.become (h.push hj.env)) fun _ hj => hj.become (h.pop hj.env)
  loop _ _ _ _ _ _ htest hbody := Journaled.loop_maintains (fun _ hj => hj.entered) htest hbody rounds

/-- The journal of a render shows an invariant of its variables at any time. -/
theorem journal {p : Program} (hmodel : E (.new model)) (hp : ∀ e ∈ exprsOf p.instructions, X e)
    (limit : Option Nat) (rounds : Nat) : (p.journal limit rounds model).Within E V := by
  have hmaintains : Maintains (Journal.Within E V) (fun _ => True)
      (interpretAll (Journaled.interpreter limit rounds) p.instructions) :=
    interpretAll_related (h.journaled limit rounds) hp
  exact Journaled.last_maintained hmaintains (.initial hmodel)

theorem changes {c : Option Change} (hX : ∀ e ∈ c.elim [] Change.exprs, X e) :
    Maintains (E ·.env) (fun _ => True) (c.forM (·.exec o) : Run Unit) := by
  rw [Change.forM_exec_eq o 0]
  exact Change.forM_related (h.interpreter o 0) hX

theorem exec {i : Instruction} (hX : ∀ e ∈ i.exprs, X e) :
    Maintains (E ·.env) (fun _ => True) (i.exec o rounds) := by
  rw [Instruction.exec_eq_interpret]
  exact Instruction.interpret_related (h.interpreter o rounds) hX

theorem execAll {is : List Instruction} (hX : ∀ e ∈ exprsOf is, X e) :
    Maintains (E ·.env) (fun _ => True) (execAll o rounds is) := by
  rw [execAll_eq_interpretAll]
  exact interpretAll_related (h.interpreter o rounds) hX

theorem forRound {step : Option Change} (hstep : ∀ e ∈ step.elim [] Change.exprs, X e)
    (hbody : ∀ e ∈ exprsOf body, X e) :
    Maintains (E ·.env) (fun _ => True) (Run.forRound o rounds line step body) :=
  Run.tick_maintains.bind fun _ _ => (h.inScope (h.execAll hbody)).bind fun _ _ => h.changes hstep

theorem forEachRound {name : String} {item : Value} (hitem : V item) (hbody : ∀ e ∈ exprsOf body, X e) :
    Maintains (E ·.env) (fun _ => True) (Run.forEachRound o rounds line name body item) :=
  Run.tick_maintains.bind fun _ _ => h.inScope ((h.declares hitem).bind fun _ _ => h.execAll hbody)

theorem whileRound (hbody : ∀ e ∈ exprsOf body, X e) :
    Maintains (E ·.env) (fun _ => True) (Run.whileRound o rounds line body) :=
  Run.tick_maintains.bind fun _ _ => h.inScope (h.execAll hbody)

/-! ### States that instructions are run from -/

theorem of_arms_enters {arms : Arms} (hm : E m.env) (hX : ∀ e ∈ arms.exprs, X e)
    (henters : arms.Enters o line m body m') : E m'.env ∧ ∀ e ∈ exprsOf body, X e := by
  induction henters with
  | otherwise => exact ⟨h.push hm, hX⟩
  | here htest =>
      obtain ⟨hbody, _⟩ := List.forall_mem_append.1 (List.forall_mem_cons.1 hX).2
      exact ⟨h.push ((Run.test_maintains _).of_ok hm htest).2, hbody⟩
  | next htest _ ih =>
      obtain ⟨_, hnext⟩ := List.forall_mem_append.1 (List.forall_mem_cons.1 hX).2
      exact ih ((Run.test_maintains _).of_ok hm htest).2 hnext

theorem of_enters {i : Instruction} (hm : E m.env) (hX : ∀ e ∈ i.exprs, X e)
    (henters : i.Enters o rounds m body m') : E m'.env ∧ ∀ e ∈ exprsOf body, X e := by
  cases henters with
  | choose harms => exact h.of_arms_enters hm hX harms
  | @forLoop line init test step _ _ m₁ m₂ m₃ m₄ hinit hrounds htest htick =>
      rw [Instruction.exprs, List.forall_mem_append, List.forall_mem_append, List.forall_mem_append] at hX
      obtain ⟨hinitX, _, hstepX, hbodyX⟩ := hX
      have hm₁ : E m₁.env := ((h.changes hinitX).of_ok (h.push hm) hinit).2
      have hm₂ : E m₂.env := hrounds.maintained hm₁ (Run.headTest_maintains test) (h.forRound hstepX hbodyX)
      have hm₃ : E m₃.env := ((Run.headTest_maintains test).of_ok hm₂ htest).2
      exact ⟨h.push (Run.tick_maintains.of_ok hm₃ htick).2, hbodyX⟩
  | @forEach line name e _ _ v item m₁ m₂ m₃ m₄ front back heval hitems hfront htick hdeclare =>
      obtain ⟨he, hbodyX⟩ := List.forall_mem_cons.1 hX
      obtain ⟨hv, hm₁⟩ := (h.demand he).of_ok hm heval
      obtain ⟨hfrontItems, hitem⟩ := List.forall_mem_append.1 (h.elements hv hitems)
      have hrounds : Maintains (E ·.env) (fun _ => True)
          (front.forM (Run.forEachRound o rounds line name body)) :=
        (h.interpreter o rounds).forM (g := Run.forEachRound o rounds line name body) fun item hitem =>
          h.forEachRound (hfrontItems item hitem) hbodyX
      have hm₂ : E m₂.env := (hrounds.of_ok hm₁ hfront).2
      have hm₃ : E m₃.env := (Run.tick_maintains.of_ok hm₂ htick).2
      exact ⟨((h.declares (hitem item List.mem_cons_self)).of_ok (h.push hm₃) hdeclare).2, hbodyX⟩
  | @whileLoop line test _ _ m₁ m₂ m₃ hrounds htest htick =>
      obtain ⟨_, hbodyX⟩ := List.forall_mem_cons.1 hX
      have hm₁ : E m₁.env := hrounds.maintained hm (Run.test_maintains test) (h.whileRound hbodyX)
      have hm₂ : E m₂.env := ((Run.test_maintains test).of_ok hm₁ htest).2
      exact ⟨h.push (Run.tick_maintains.of_ok hm₂ htick).2, hbodyX⟩
  | scope => exact ⟨h.push hm, hX⟩

theorem of_executes {p : Program} {depth : Nat} {is : List Instruction} (hmodel : E (.new model))
    (hp : ∀ e ∈ exprsOf p.instructions, X e) (hexecutes : Executes o rounds p model depth is m) :
    E m.env ∧ ∀ e ∈ exprsOf is, X e := by
  induction hexecutes with
  | start => exact ⟨hmodel, hp⟩
  | next _ hok ih =>
      obtain ⟨hm, hX⟩ := ih
      obtain ⟨hi, his⟩ := List.forall_mem_append.1 hX
      exact ⟨((h.exec hi).of_ok hm hok).2, his⟩
  | enter _ henters ih =>
      obtain ⟨hm, hX⟩ := ih
      exact h.of_enters hm (List.forall_mem_append.1 hX).1 henters

end Environment.Invariant

end MailTemplate
