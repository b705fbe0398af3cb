import MailTemplate.Proofs.Render.Environment
import MailTemplate.Proofs.Render.Run

/-!
# Scopes of a render

However instructions end, the scopes around them are the ones they began with, and the scope of the
model is untouched. Where they end well, the innermost scope has the names of their own declarations
besides, and a variable has another value only if it is assigned to (`execAll_scopes`).
-/

namespace MailTemplate

/-! ## What instructions declare and assign to -/

def Change.declared : Change → List String
  | declare _ name _ => [name]
  | assign .. => []

def Instruction.declared : Instruction → List String
  | .change c => c.declared
  | _ => []

/-- The names that the declarations standing directly among instructions bind. -/
def declaredNames (is : List Instruction) : List String := is.flatMap Instruction.declared

def Change.assigned : Change → List String
  | declare .. => []
  | assign _ name _ _ => [name]

mutual

/-- The names that an instruction and those within it assign to. -/
def Instruction.assigned : Instruction → List String
  | .literal .. | .value .. | .newline _ => []
  | .change c => c.assigned
  | .choose _ arms => arms.assigned
  | .forLoop _ init _ step body =>
      init.elim [] Change.assigned ++ (assignedNames body ++ step.elim [] Change.assigned)
  | .forEach _ _ _ body | .whileLoop _ _ body | .scope _ body => assignedNames body

def Arms.assigned : Arms → List String
  | .done => []
  | .otherwise body => assignedNames body
  | .test _ body next => assignedNames body ++ next.assigned

def assignedNames : List Instruction → List String
  | [] => []
  | i :: is => i.assigned ++ assignedNames is

end

/-! ## Runs that keep the scopes -/

/-- The run changes the local scopes alone: by `R` if it ends well, and after an error there are as many as
before. -/
structure Carries {α : Type} (R : List Scope → List Scope → Prop) (x : Run α) : Prop where
  ok {model locals m a m'} : locals ≠ [] → m.env = .atop model locals → x m = .ok a m' →
    ∃ locals', m'.env = .atop model locals' ∧ R locals locals'
  error {model locals m e m'} : locals ≠ [] → m.env = .atop model locals → x m = .error e m' →
    ∃ locals', m'.env = .atop model locals' ∧ locals'.length = locals.length

namespace Carries

variable {α β : Type} {R S T : List Scope → List Scope → Prop} {x : Run α} {f : α → Run β}

theorem mono (hx : Carries R x) (h : ∀ ss ts, R ss ts → S ss ts) : Carries S x where
  ok hlocals henv hok := by
    obtain ⟨locals', henv', hR⟩ := hx.ok hlocals henv hok
    exact ⟨locals', henv', h _ _ hR⟩
  error hlocals henv herror := hx.error hlocals henv herror

theorem bind (hx : Carries R x) (hf : ∀ a, Carries S (f a))
    (hlength : ∀ ss ts, R ss ts → ts.length = ss.length)
    (htrans : ∀ ss ts us, R ss ts → S ts us → T ss us) : Carries T (x >>= f) where
  ok hlocals henv hok := by
    obtain ⟨a, mid, hxok, hfok⟩ := Run.bind_eq_ok_iff.1 hok
    obtain ⟨locals₁, henv₁, hR⟩ := hx.ok hlocals henv hxok
    have hlocals₁ := List.ne_nil_of_length_pos (hlength _ _ hR ▸ List.length_pos_iff.2 hlocals)
    obtain ⟨locals₂, henv₂, hS⟩ := (hf a).ok hlocals₁ henv₁ hfok
    exact ⟨locals₂, henv₂, htrans _ _ _ hR hS⟩
  error hlocals henv herror := by
    rcases Run.bind_eq_error_iff.1 herror with hxerror | ⟨a, mid, hxok, hferror⟩
    · exact hx.error hlocals henv hxerror
    · obtain ⟨locals₁, henv₁, hR⟩ := hx.ok hlocals henv hxok
      have hlocals₁ := List.ne_nil_of_length_pos (hlength _ _ hR ▸ List.length_pos_iff.2 hlocals)
      obtain ⟨locals₂, henv₂, hlength₂⟩ := (hf a).error hlocals₁ henv₁ hferror
      exact ⟨locals₂, henv₂, hlength₂.trans (hlength _ _ hR)⟩

/-- A run that leaves the variables as they are. -/
theorem of_env (hrefl : ∀ ss, ss ≠ [] → R ss ss) (hok : ∀ m a m', x m = .ok a m' → m'.env = m.env)
    (herror : ∀ m e m', x m = .error e m' → m'.env = m.env) : Carries R x where
  ok hlocals henv h := ⟨_, (hok _ _ _ h).trans henv, hrefl _ hlocals⟩
  error _ henv h := ⟨_, (herror _ _ _ h).trans henv, rfl⟩

theorem loop {test : Run Bool} {body : Run Unit} (htest : Carries R test) (hbody : Carries R body)
    (hrefl : ∀ ss, ss ≠ [] → R ss ss) (hlength : ∀ ss ts, R ss ts → ts.length = ss.length)
    (htrans : ∀ ss ts us, R ss ts → R ts us → R ss us) (rounds : Nat) :
    Carries R (Run.loop test body rounds) := by
  induction rounds with
  | zero => exact of_env hrefl (fun _ _ _ h => by cases h) (fun _ _ _ h => by cases h; rfl)
  | succ rounds ih =>
      refine htest.bind (fun b => ?_) hlength htrans
      cases b with
      | false => exact of_env hrefl (fun _ _ _ h => by cases h; rfl) (fun _ _ _ h => by cases h)
      | true => exact hbody.bind (fun _ => ih) hlength htrans

end Carries

/-- The run keeps the scopes, and the local ones evolve. -/
abbrev Keeps {α : Type} (declared assigned : List String) (x : Run α) : Prop :=
  Carries (LocalsEvolve declared assigned) x

namespace Keeps

variable {α β : Type} {declared declared' assigned assigned' : List String} {x : Run α} {f : α → Run β}

theorem mono (hx : Keeps declared assigned x) (h : assigned ⊆ assigned') : Keeps declared assigned' x :=
  Carries.mono hx fun _ _ hevolve => hevolve.mono h

theorem bind (hx : Keeps declared assigned x) (hf : ∀ a, Keeps declared' assigned' (f a)) :
    Keeps (declared ++ declared') (assigned ++ assigned') (x >>= f) :=
  Carries.bind hx hf (fun _ _ => LocalsEvolve.length_eq) fun _ _ _ => LocalsEvolve.trans

/-- Two parts that assign to the same names. -/
theorem seq (hx : Keeps declared assigned x) (hf : ∀ a, Keeps declared' assigned (f a)) :
    Keeps (declared ++ declared') assigned (x >>= f) :=
  (hx.bind hf).mono (by simp)

theorem of_env (hok : ∀ m a m', x m = .ok a m' → m'.env = m.env)
    (herror : ∀ m e m', x m = .error e m' → m'.env = m.env) : Keeps [] assigned x :=
  Carries.of_env (fun _ => LocalsEvolve.refl) hok herror

theorem pure (a : α) : Keeps [] assigned (pure a : Run α) :=
  of_env (fun _ _ _ h => by cases h; rfl) (fun _ _ _ h => by cases h)

theorem fail (line : Nat) (cause : FaultCause) : Keeps [] assigned (Run.fail line cause : Run α) :=
  of_env (fun _ _ _ h => by cases h) (fun _ _ _ h => by cases h; rfl)

theorem get : Keeps [] assigned (get : Run Machine) :=
  of_env (fun _ _ _ h => by cases h; rfl) (fun _ _ _ h => by cases h)

theorem emit (c : Chunk) : Keeps [] assigned (Run.emit c) :=
  of_env (fun _ _ _ h => by cases h; rfl) (fun _ _ _ h => by cases h)

theorem eval (o : RenderOptions) (line : Nat) (mode : Resolution) (e : Expr) :
    Keeps [] assigned (Run.eval o line mode e) := by
  refine of_env (fun m a m' h => ?_) (fun m a m' h => ?_)
  all_goals
    unfold Run.eval at h
    split at h <;> cases h
    rfl

theorem combine (o : RenderOptions) (line : Nat) (op : BinaryOp) (l r : Value) :
    Keeps [] assigned (Run.combine o line op l r) := by
  refine of_env (fun m a m' h => ?_) (fun m a m' h => ?_)
  all_goals
    unfold Run.combine at h
    split at h <;> cases h
    rfl

theorem tick (o : RenderOptions) (line : Nat) : Keeps [] assigned (Run.tick o line) := by
  refine of_env (fun m a m' h => ?_) (fun m a m' h => ?_)
  · simp only [Run.tick] at h
    split at h
    · split at h <;> cases h
      rfl
    · cases h
      rfl
  · simp only [Run.tick] at h
    split at h
    · split at h <;> cases h
      rfl
    · cases h

theorem test (o : RenderOptions) (line : Nat) (e : Expr) : Keeps [] assigned (Run.test o line e) :=
  (eval o line .optional e).seq fun _ => pure _

theorem headTest (o : RenderOptions) (line : Nat) (test : Option Expr) :
    Keeps [] assigned (Run.headTest o line test) := by
  cases test with
  | none => exact pure true
  | some e => exact Keeps.test o line e

theorem update {line : Nat} {g : Environment → Except FaultCause Environment}
    (hg : ∀ model locals env, locals ≠ [] → g (.atop model locals) = .ok env →
      ∃ locals', env = .atop model locals' ∧ LocalsEvolve declared assigned locals locals') :
    Keeps declared assigned (Run.update line g) where
  ok hlocals henv h := by
    unfold Run.update at h
    split at h
    · rename_i env hok
      cases h
      rw [henv] at hok
      exact hg _ _ _ hlocals hok
    · cases h
  error hlocals henv h := by
    unfold Run.update at h
    split at h
    · cases h
    · cases h
      exact ⟨_, henv, rfl⟩

theorem declare (line : Nat) (name : String) (v : Value) :
    Keeps [name] [] (Run.update line (·.declare name v)) :=
  update fun _ _ _ => Environment.declare_atop

theorem assign (line : Nat) (name : String) (v : Value) :
    Keeps [] [name] (Run.update line (·.assign name v)) :=
  update fun _ _ _ => Environment.assign_atop

theorem loop {test : Run Bool} {body : Run Unit} (htest : Keeps [] assigned test)
    (hbody : Keeps [] assigned body) (rounds : Nat) : Keeps [] assigned (Run.loop test body rounds) := by
  refine Carries.loop htest hbody (fun _ => LocalsEvolve.refl) (fun _ _ => LocalsEvolve.length_eq) ?_ rounds
  intro ss ts us h h'
  exact (h.trans h').mono (by simp)

theorem forM {γ : Type} {g : γ → Run PUnit} (hg : ∀ c, Keeps [] assigned (g c)) (cs : List γ) :
    Keeps [] assigned (cs.forM g) := by
  induction cs with
  | nil => exact pure ()
  | cons c cs ih => exact (hg c).seq fun _ => ih

end Keeps

/-- The local scopes evolve, whatever is declared in the innermost one. -/
def LocalsDrift (assigned : List String) (ss ts : List Scope) : Prop :=
  ∃ declared, LocalsEvolve declared assigned ss ts

theorem LocalsDrift.trans {assigned : List String} {ss ts us : List Scope} (h : LocalsDrift assigned ss ts)
    (h' : LocalsDrift assigned ts us) : LocalsDrift assigned ss us := by
  obtain ⟨declared, hevolve⟩ := h
  obtain ⟨declared', hevolve'⟩ := h'
  exact ⟨declared ++ declared', (hevolve.trans hevolve').mono (by simp)⟩

theorem LocalsDrift.length_eq {assigned : List String} {ss ts : List Scope} (h : LocalsDrift assigned ss ts) :
    ts.length = ss.length := by
  obtain ⟨_, hevolve⟩ := h
  exact hevolve.length_eq

/-- The run keeps the scopes, and may declare anything in the innermost one. -/
abbrev Drifts {α : Type} (assigned : List String) (x : Run α) : Prop := Carries (LocalsDrift assigned) x

namespace Drifts

variable {α β : Type} {declared assigned assigned' : List String} {x : Run α} {f : α → Run β}

theorem of_keeps (hx : Keeps declared assigned x) : Drifts assigned x :=
  Carries.mono hx fun _ _ hevolve => ⟨declared, hevolve⟩

theorem mono (hx : Drifts assigned x) (h : assigned ⊆ assigned') : Drifts assigned' x := by
  refine Carries.mono hx ?_
  rintro _ _ ⟨declared, hevolve⟩
  exact ⟨declared, hevolve.mono h⟩

theorem seq (hx : Drifts assigned x) (hf : ∀ a, Drifts assigned (f a)) : Drifts assigned (x >>= f) :=
  Carries.bind hx hf (fun _ _ => LocalsDrift.length_eq) fun _ _ _ => LocalsDrift.trans

theorem loop {test : Run Bool} {body : Run Unit} (htest : Drifts assigned test)
    (hbody : Drifts assigned body) (rounds : Nat) : Drifts assigned (Run.loop test body rounds) :=
  Carries.loop htest hbody (fun _ hss => ⟨[], .refl hss⟩) (fun _ _ => LocalsDrift.length_eq)
    (fun _ _ _ => LocalsDrift.trans) rounds

/-- What is declared in a scope of its own is gone with it. -/
theorem inScope (hx : Drifts assigned x) : Keeps [] assigned (Run.inScope x) where
  ok {model locals m a m'} hlocals henv h := by
    obtain ⟨mid, hmid, rfl⟩ := Run.inScope_eq_ok_iff.1 h
    have hpush : m.env.push = .atop model ([] :: locals) := by rw [henv, Environment.push_atop]
    obtain ⟨locals', henv', _, hevolve⟩ := hx.ok (List.cons_ne_nil _ _) hpush hmid
    -- The names that were declared are in the scope in front, and no others were.
    cases hevolve with
    | @mk _ s' _ ss' _ hss =>
        cases hss with
        | nil => exact absurd rfl hlocals
        | cons ht hts =>
            refine ⟨_, ?_, ht, hts⟩
            rw [henv', Environment.pop_atop (List.cons_ne_nil _ _)]
  error {model locals m e m'} hlocals henv h := by
    obtain ⟨mid, hmid, rfl⟩ := Run.inScope_eq_error_iff.1 h
    have hpush : m.env.push = .atop model ([] :: locals) := by rw [henv, Environment.push_atop]
    obtain ⟨locals', henv', hlength⟩ := hx.error (List.cons_ne_nil _ _) hpush hmid
    cases locals' with
    | nil => cases hlength
    | cons s ss =>
        have hss : ss.length = locals.length := Nat.succ.inj hlength
        refine ⟨ss, ?_, hss⟩
        refine (congrArg _ henv').trans (Environment.pop_atop ?_)
        exact List.ne_nil_of_length_pos (hss ▸ List.length_pos_iff.2 hlocals)

end Drifts

/-! ## Instructions -/

variable {o : RenderOptions} {rounds : Nat}

theorem Change.exec_keeps (c : Change) : Keeps c.declared c.assigned (c.exec o) := by
  cases c with
  | declare line name value =>
      cases value with
      | none => exact (Keeps.pure _).seq fun v => .declare line name v
      | some e => exact (Keeps.eval o line .required e).seq fun v => .declare line name v
  | assign line name op value =>
      refine (Keeps.eval o line .required value).seq fun v => ?_
      split
      · exact .assign line name v
      · refine Keeps.get.seq fun m => ?_
        split
        · exact .fail line _
        · exact (Keeps.combine o line _ _ v).seq fun v => .assign line name v

theorem Change.forM_drifts (c : Option Change) : Drifts (c.elim [] Change.assigned) (c.forM (·.exec o)) := by
  cases c with
  | none => exact .of_keeps (.pure ())
  | some c => exact .of_keeps c.exec_keeps

section Rounds

variable {declared assigned : List String} {line : Nat} {body : List Instruction}

theorem Drifts.forRound {step : Option Change} (hbody : Drifts assigned (execAll o rounds body)) :
    Drifts (assigned ++ step.elim [] Change.assigned) (Run.forRound o rounds line step body) := by
  have hscope : Drifts assigned (Run.inScope (execAll o rounds body)) := .of_keeps hbody.inScope
  refine .seq (.of_keeps (.tick o line)) fun _ => .seq (hscope.mono ?_) fun _ => ?_
  · exact List.subset_append_left _ _
  · exact (Change.forM_drifts step).mono (List.subset_append_right _ _)

theorem Keeps.declareThen {name : String} {item : Value}
    (hbody : Keeps declared assigned (execAll o rounds body)) :
    Keeps (name :: declared) assigned
      (Run.update line (·.declare name item) >>= fun _ => execAll o rounds body) :=
  (Keeps.declare line name item).bind fun _ => hbody

theorem Keeps.forEachRound {name : String} (hbody : Keeps declared assigned (execAll o rounds body))
    (item : Value) : Keeps [] assigned (Run.forEachRound o rounds line name body item) :=
  (Keeps.tick o line).seq fun _ => (Drifts.of_keeps hbody.declareThen).inScope

theorem Keeps.whileRound (hbody : Drifts assigned (execAll o rounds body)) :
    Keeps [] assigned (Run.whileRound o rounds line body) :=
  (Keeps.tick o line).seq fun _ => hbody.inScope

end Rounds

mutual

theorem Instruction.exec_keeps (i : Instruction) : Keeps i.declared i.assigned (i.exec o rounds) := by
  match i with
  | .literal _ text =>
      rw [Instruction.exec]
      exact .emit _
  | .newline _ =>
      rw [Instruction.exec]
      exact .emit _
  | .value line e =>
      rw [Instruction.exec]
      refine (Keeps.eval o line .required e).seq fun v => ?_
      split
      · exact .fail line _
      · exact .emit _
  | .change c =>
      rw [Instruction.exec]
      exact c.exec_keeps
  | .choose line arms =>
      rw [Instruction.exec]
      exact arms.exec_keeps line
  | .forLoop line init test step body =>
      rw [Instruction.exec_forLoop]
      refine Drifts.inScope (.seq ?_ fun _ => .loop (.of_keeps (.headTest o line test)) ?_ _)
      · exact (Change.forM_drifts init).mono (List.subset_append_left _ _)
      · exact (Drifts.forRound (execAll_drifts body)).mono (List.subset_append_right _ _)
  | .forEach line name e body =>
      rw [Instruction.exec_forEach]
      refine (Keeps.eval o line .required e).seq fun v => ?_
      split
      · exact .fail line _
      · exact .forM (execAll_keeps body).forEachRound _
  | .whileLoop line test body =>
      rw [Instruction.exec_whileLoop]
      exact .loop (.test o line test) (.whileRound (execAll_drifts body)) rounds
  | .scope _ body =>
      rw [Instruction.exec]
      exact (execAll_drifts body).inScope

theorem Arms.exec_keeps (line : Nat) (arms : Arms) : Keeps [] arms.assigned (arms.exec o rounds line) := by
  match arms with
  | .done =>
      rw [Arms.exec]
      exact .pure ()
  | .otherwise body =>
      rw [Arms.exec]
      exact (execAll_drifts body).inScope
  | .test e body next =>
      rw [Arms.exec]
      refine (Keeps.test o line e).seq fun b => ?_
      cases b with
      | true => exact (execAll_drifts body).inScope.mono (List.subset_append_left _ _)
      | false => exact (next.exec_keeps line).mono (List.subset_append_right _ _)

theorem execAll_keeps (is : List Instruction) :
    Keeps (declaredNames is) (assignedNames is) (execAll o rounds is) := by
  match is with
  | [] =>
      rw [execAll]
      exact .pure ()
  | i :: is =>
      rw [execAll]
      exact i.exec_keeps.bind fun _ => execAll_keeps is

theorem execAll_drifts (is : List Instruction) : Drifts (assignedNames is) (execAll o rounds is) :=
  .of_keeps (execAll_keeps is)

end

/-! ## Where instructions are run -/

def Machine.push (m : Machine) : Machine := { m with env := m.env.push }

/-- A loop that begins in the first state is before one of its tests in the second. -/
inductive Run.Rounds (test : Run Bool) (body : Run Unit) : Machine → Machine → Prop
  | first {m} : Rounds test body m m
  | next {m₁ m₂ m₃ m₄} : test m₁ = .ok true m₂ → body m₂ = .ok () m₃ → Rounds test body m₃ m₄ →
      Rounds test body m₁ m₄

section Enters

variable (o : RenderOptions) (rounds : Nat)

/-- The arms, tested from the first state on, enter a body in the second. -/
inductive Arms.Enters (line : Nat) : Arms → Machine → List Instruction → Machine → Prop
  | otherwise {body m} : Enters line (.otherwise body) m body m.push
  | here {e body next m m'} : Run.test o line e m = .ok true m' →
      Enters line (.test e body next) m body m'.push
  | next {e body next m m' is m''} : Run.test o line e m = .ok false m' → Enters line next m' is m'' →
      Enters line (.test e body next) m is m''

/-- The instruction, run from the first state on, enters a body in the second. -/
inductive Instruction.Enters : Instruction → Machine → List Instruction → Machine → Prop
  | choose {line arms m body m'} : arms.Enters o line m body m' → Enters (.choose line arms) m body m'
  | forLoop {line init test step body m m₁ m₂ m₃ m₄} :
      init.forM (·.exec o) m.push = .ok () m₁ →
      Run.Rounds (Run.headTest o line test) (Run.forRound o rounds line step body) m₁ m₂ →
      Run.headTest o line test m₂ = .ok true m₃ → Run.tick o line m₃ = .ok () m₄ →
      Enters (.forLoop line init test step body) m body m₄.push
  | forEach {line name e body m v item m₁ m₂ m₃ m₄} (front back : List Value) :
      Run.eval o line .required e m = .ok v m₁ → v.elements? = some (front ++ item :: back) →
      front.forM (Run.forEachRound o rounds line name body) m₁ = .ok () m₂ →
      Run.tick o line m₂ = .ok () m₃ → Run.update line (·.declare name item) m₃.push = .ok () m₄ →
      Enters (.forEach line name e body) m body m₄
  | whileLoop {line test body m m₁ m₂ m₃} :
      Run.Rounds (Run.test o line test) (Run.whileRound o rounds line body) m m₁ →
      Run.test o line test m₁ = .ok true m₂ → Run.tick o line m₂ = .ok () m₃ →
      Enters (.whileLoop line test body) m body m₃.push
  | scope {line body m} : Enters (.scope line body) m body m.push

end Enters

/-- How many scopes an instruction opens around a body. -/
def Instruction.opens : Instruction → Nat
  | .forLoop .. => 2
  | _ => 1

/-- In the run of a program for a model, instructions are run from a state, with `depth` scopes opened
around them. -/
inductive Executes (o : RenderOptions) (rounds : Nat) (p : Program) (model : Value) :
    Nat → List Instruction → Machine → Prop
  | start : Executes o rounds p model 0 p.instructions (Program.initial model)
  | next {depth i is m m'} : Executes o rounds p model depth (i :: is) m →
      i.exec o rounds m = .ok () m' → Executes o rounds p model depth is m'
  | enter {depth i is m body m'} : Executes o rounds p model depth (i :: is) m →
      i.Enters o rounds m body m' → Executes o rounds p model (depth + i.opens) body m'

/-- Over the scope of the model stand `n` local ones, and there is at least one. -/
def Scoped (model : Value) (n : Nat) (m : Machine) : Prop :=
  ∃ locals, m.env = .atop model locals ∧ locals ≠ [] ∧ locals.length = n

section Scoped

variable {α : Type} {declared assigned : List String} {model : Value} {n : Nat} {m m' : Machine}
  {x : Run α} {a : α}

theorem Scoped.push (h : Scoped model n m) : Scoped model (n + 1) m.push := by
  obtain ⟨locals, henv, _, rfl⟩ := h
  exact ⟨[] :: locals, congrArg Environment.push henv, List.cons_ne_nil _ _, rfl⟩

theorem Scoped.of_drifts (h : Scoped model n m) (hx : Drifts assigned x) (hok : x m = .ok a m') :
    Scoped model n m' := by
  obtain ⟨locals, henv, hlocals, rfl⟩ := h
  obtain ⟨locals', henv', _, hevolve⟩ := hx.ok hlocals henv hok
  exact ⟨locals', henv', hevolve.ne_nil, hevolve.length_eq⟩

theorem Scoped.of_keeps (h : Scoped model n m) (hx : Keeps declared [] x) (hok : x m = .ok a m') :
    Scoped model n m' :=
  h.of_drifts (.of_keeps hx) hok

theorem Scoped.of_rounds {test : Run Bool} {body : Run Unit} (h : Scoped model n m)
    (htest : Keeps [] [] test) (hbody : Drifts assigned body) (hrounds : Run.Rounds test body m m') :
    Scoped model n m' := by
  induction hrounds with
  | first => exact h
  | next htrue hok _ ih => exact ih ((h.of_keeps htest htrue).of_drifts hbody hok)

theorem Arms.Enters.scoped {line : Nat} {arms : Arms} {body : List Instruction} (h : Scoped model n m)
    (henters : arms.Enters o line m body m') : Scoped model (n + 1) m' := by
  induction henters with
  | otherwise => exact h.push
  | here htest => exact (h.of_keeps (.test o line _) htest).push
  | next htest _ ih => exact ih (h.of_keeps (.test o line _) htest)

theorem Instruction.Enters.scoped {i : Instruction} {body : List Instruction} (h : Scoped model n m)
    (henters : i.Enters o rounds m body m') : Scoped model (n + i.opens) m' := by
  cases henters with
  | choose harms => exact harms.scoped h
  | @forLoop line init test step _ _ _ _ _ _ hinit hrounds htest htick =>
      have hbegun := h.push.of_drifts (Change.forM_drifts init) hinit
      have hround := hbegun.of_rounds (.headTest o line test) (.forRound (execAll_drifts body)) hrounds
      exact ((hround.of_keeps (.headTest o line test) htest).of_keeps (.tick o line) htick).push
  | @forEach line name e _ _ _ _ _ _ _ _ front _ heval _ hfront htick hdeclare =>
      have hitems := h.of_keeps (.eval o line .required e) heval
      have hround := hitems.of_drifts (.of_keeps (.forM (execAll_keeps body).forEachRound front)) hfront
      exact (hround.of_keeps (.tick o line) htick).push.of_keeps (.declare line name _) hdeclare
  | @whileLoop line test _ _ _ _ _ hrounds htest htick =>
      have hround := h.of_rounds (.test o line test) (.of_keeps (.whileRound (execAll_drifts body))) hrounds
      exact ((hround.of_keeps (.test o line test) htest).of_keeps (.tick o line) htick).push
  | scope => exact h.push

theorem Executes.scoped {p : Program} {depth : Nat} {is : List Instruction}
    (h : Executes o rounds p model depth is m) : Scoped model (depth + 1) m := by
  induction h with
  | start => exact ⟨[[]], rfl, List.cons_ne_nil _ _, rfl⟩
  | @next _ i _ _ _ _ hok ih => exact ih.of_drifts (.of_keeps i.exec_keeps) hok
  | enter _ henters ih =>
      have := henters.scoped ih
      rwa [Nat.add_right_comm] at this

/-- However a run ends, it leaves as many scopes as it began with. -/
theorem Scoped.of_endsIn (h : Scoped model n m) (hx : Drifts assigned x) (hends : Run.EndsIn x m m') :
    Scoped model n m' := by
  rcases hends with ⟨a, hok⟩ | ⟨e, herror⟩
  · exact h.of_drifts hx hok
  · obtain ⟨locals, henv, hlocals, rfl⟩ := h
    obtain ⟨locals', henv', hlength⟩ := hx.error hlocals henv herror
    exact ⟨locals', henv', List.ne_nil_of_length_pos (hlength ▸ List.length_pos_iff.2 hlocals), hlength⟩

theorem Scoped.length_eq (h : Scoped model n m) : m.env.scopes.length = n + 1 := by
  obtain ⟨locals, henv, _, rfl⟩ := h
  simp [henv, Environment.atop]

theorem Scoped.getLast?_eq (h : Scoped model n m) :
    m.env.scopes.getLast? = some [(modelName, model)] := by
  obtain ⟨locals, henv, _⟩ := h
  simp [henv, Environment.atop]

/-- Wherever a run executes instructions, and however any instructions run from there end, the scopes are
as many as before, over the untouched scope of the model; a scope of their own is there to be left. Where
they end well, each scope evolves: the innermost one gets the names that they declare themselves, and at
most the variables that they assign to get other values. -/
theorem execAll_scopes {p : Program} {depth : Nat} {is₀ : List Instruction}
    (h : Executes o rounds p model depth is₀ m) (is : List Instruction) :
    m.env.scopes.length = depth + 2 ∧
    (∀ m', Run.EndsIn (execAll o rounds is) m m' →
      m'.env.scopes.length = depth + 2 ∧ m'.env.scopes.getLast? = some [(modelName, model)] ∧
        (0 < depth → m'.env.pop.scopes = m'.env.scopes.tail)) ∧
    ∀ m', execAll o rounds is m = .ok () m' → ∃ s ss s' ss',
      m.env.scopes = s :: ss ∧ m'.env.scopes = s' :: ss' ∧
        s.Evolves (declaredNames is) (assignedNames is) s' ∧
        List.Forall₂ (Scope.Evolves [] (assignedNames is)) ss ss' := by
  have hscoped := h.scoped
  refine ⟨hscoped.length_eq, fun m' hends => ?_, fun m' hok => ?_⟩
  · have hscoped' := hscoped.of_endsIn (execAll_drifts is) hends
    refine ⟨hscoped'.length_eq, hscoped'.getLast?_eq, fun hdepth => ?_⟩
    rw [Environment.pop, if_pos]
    rw [hscoped'.length_eq]
    omega
  · obtain ⟨locals, henv, hlocals, _⟩ := hscoped
    obtain ⟨locals', henv', hevolve⟩ := (execAll_keeps is).ok hlocals henv hok
    cases hevolve with
    | mk hs hss =>
        refine ⟨_, _, _, _, by rw [henv]; rfl, by rw [henv']; rfl, hs, ?_⟩
        exact List.rel_append hss (.cons (.refl _ _) .nil)

end Scoped

/-- A body that assigns to a variable of the scope around it, and declares one of its own. -/
def nestedBody : List Instruction :=
  [.change (.assign 1 "x" .set (.string "b")), .change (.declare 1 "y" none)]

theorem execAll_scopes_nested :
    ∃ m m', Executes ⟨false, none⟩ 1
        ⟨[.change (.declare 1 "x" (some (.string "a"))), .scope 1 nestedBody], .lf⟩ .null 1 nestedBody m ∧
      execAll ⟨false, none⟩ 1 nestedBody m = .ok () m' ∧
      m'.env.scopes = [[("y", .null)], [("x", .string "b")], [(modelName, .null)]] ∧
      m'.env.pop.scopes = m'.env.scopes.tail := by
  have hscope : Executes ⟨false, none⟩ 1
      ⟨[.change (.declare 1 "x" (some (.string "a"))), .scope 1 nestedBody], .lf⟩ .null 0
      [.scope 1 nestedBody] ⟨⟨.null, [[("x", .string "a")], [(modelName, .null)]]⟩, #[], #[], 0⟩ :=
    .next .start (by cbv)
  have hok : execAll ⟨false, none⟩ 1 nestedBody
      ⟨⟨.null, [[], [("x", .string "a")], [(modelName, .null)]]⟩, #[], #[], 0⟩ =
      .ok () ⟨⟨.null, [[("y", .null)], [("x", .string "b")], [(modelName, .null)]]⟩, #[], #[], 0⟩ := by cbv
  have hbody := Executes.enter hscope .scope
  exact ⟨_, _, hbody, hok, rfl, ((execAll_scopes hbody nestedBody).2.1 _ (.inl ⟨(), hok⟩)).2.2 Nat.one_pos⟩

end MailTemplate
