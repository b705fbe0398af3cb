import MailTemplate.Proofs.Compile.Loops
import MailTemplate.Proofs.Render.Padding
import MailTemplate.Proofs.Template.Reading

/-!
# Loops and choices in simpler terms

A `for` renders as a `while` in a scope of its own, and a choice of several arms as choices of one arm
nested in each other (`ofSource_desugars`). The simpler instructions run in further scopes, which stay
empty.
-/

namespace MailTemplate

open Text

/-! ## Instructions in simpler terms -/

/-- A `for` as a `while`, which runs the body in a scope of its own before the step. -/
def Instruction.asWhile (line : Nat) (init : Option Change) (test : Option Expr) (step : Option Change)
    (body : List Instruction) : Instruction :=
  .scope line (init.toList.map .change ++
    [.whileLoop line (test.getD (.bool true)) (.scope line body :: step.toList.map .change)])

mutual

/-- Any loops and choices within an instruction are replaced by what they mean. -/
inductive Instruction.Desugars : Instruction → Instruction → Prop
  | literal (line : Nat) (text : String) : Instruction.Desugars (.literal line text) (.literal line text)
  | value (line : Nat) (e : Expr) : Instruction.Desugars (.value line e) (.value line e)
  | newline (line : Nat) : Instruction.Desugars (.newline line) (.newline line)
  | change (c : Change) : Instruction.Desugars (.change c) (.change c)
  | choose {arms arms'} (line : Nat) : Arms.Desugars line arms arms' →
      Instruction.Desugars (.choose line arms) (.choose line arms')
  | forLoop {body body'} (line : Nat) (init : Option Change) (test : Option Expr) (step : Option Change) :
      DesugarsAll body body' →
      Instruction.Desugars (.forLoop line init test step body) (.forLoop line init test step body')
  | asWhile {body body'} (line : Nat) (init : Option Change) (test : Option Expr) (step : Option Change) :
      DesugarsAll body body' →
      Instruction.Desugars (.forLoop line init test step body) (.asWhile line init test step body')
  | forEach {body body'} (line : Nat) (name : String) (e : Expr) : DesugarsAll body body' →
      Instruction.Desugars (.forEach line name e body) (.forEach line name e body')
  | whileLoop {body body'} (line : Nat) (test : Expr) : DesugarsAll body body' →
      Instruction.Desugars (.whileLoop line test body) (.whileLoop line test body')
  | scope {body body'} (line : Nat) : DesugarsAll body body' →
      Instruction.Desugars (.scope line body) (.scope line body')

/-- The arms behind the first one may become a choice of their own, on the line of the first. -/
inductive Arms.Desugars : Nat → Arms → Arms → Prop
  | done {line} : Arms.Desugars line .done .done
  | otherwise {line body body'} : DesugarsAll body body' →
      Arms.Desugars line (.otherwise body) (.otherwise body')
  | test {line body body' next next'} (e : Expr) : DesugarsAll body body' → Arms.Desugars line next next' →
      Arms.Desugars line (.test e body next) (.test e body' next')
  | nested {line body body' e' body₂ next arms} (e : Expr) : DesugarsAll body body' →
      Arms.Desugars line (.test e' body₂ next) arms →
      Arms.Desugars line (.test e body (.test e' body₂ next)) (.test e body' (.otherwise [.choose line arms]))

inductive DesugarsAll : List Instruction → List Instruction → Prop
  | nil : DesugarsAll [] []
  | cons {i i' is is'} : Instruction.Desugars i i' → DesugarsAll is is' → DesugarsAll (i :: is) (i' :: is')

end

mutual

theorem Instruction.Desugars.refl (i : Instruction) : i.Desugars i := by
  match i with
  | .literal line text => exact .literal line text
  | .value line e => exact .value line e
  | .newline line => exact .newline line
  | .change c => exact .change c
  | .choose line arms => exact .choose line (.refl line arms)
  | .forLoop line init test step body => exact .forLoop line init test step (.refl body)
  | .forEach line name e body => exact .forEach line name e (.refl body)
  | .whileLoop line test body => exact .whileLoop line test (.refl body)
  | .scope line body => exact .scope line (.refl body)

theorem Arms.Desugars.refl (line : Nat) (arms : Arms) : arms.Desugars line arms := by
  match arms with
  | .done => exact .done
  | .otherwise body => exact .otherwise (.refl body)
  | .test e body next => exact .test e (.refl body) (.refl line next)

theorem DesugarsAll.refl (is : List Instruction) : DesugarsAll is is := by
  match is with
  | [] => exact .nil
  | i :: is => exact .cons (.refl i) (.refl is)

end

/-! ## Runs of simpler instructions -/

variable {o : RenderOptions} {rounds : Nat}

theorem execAll_append (is js : List Instruction) :
    execAll o rounds (is ++ js) = execAll o rounds is >>= fun _ => execAll o rounds js := by
  induction is with
  | nil =>
      rw [List.nil_append, execAll.eq_1, pure_bind]
  | cons i is ih =>
      rw [List.cons_append, execAll.eq_2, execAll.eq_2, ih, bind_assoc]

theorem execAll_singleton (i : Instruction) : execAll o rounds [i] = i.exec o rounds := by
  rw [execAll, execAll]
  exact bind_pure_unit

theorem execAll_changes (c : Option Change) :
    execAll o rounds (c.toList.map .change) = c.forM (·.exec o) := by
  cases c with
  | none => rw [Option.toList_none, List.map_nil, execAll]; rfl
  | some c =>
      rw [Option.toList_some, List.map_singleton, execAll_singleton, Instruction.exec]
      rfl

theorem Instruction.exec_asWhile {line : Nat} {init : Option Change} {test : Option Expr}
    {step : Option Change} {body : List Instruction} :
    (asWhile line init test step body).exec o rounds =
      Run.inScope (init.forM (·.exec o) >>= fun _ =>
        Run.loop (Run.test o line (test.getD (.bool true)))
          (Run.whileRound o rounds line (.scope line body :: step.toList.map .change)) rounds) := by
  rw [asWhile, exec, execAll_append, execAll_changes, execAll_singleton, exec_whileLoop]

theorem Run.whileRound_asWhile {line : Nat} {step : Option Change} {body : List Instruction} :
    Run.whileRound o rounds line (.scope line body :: step.toList.map .change) =
      Run.tick o line >>= fun _ =>
        Run.inScope (Run.inScope (execAll o rounds body) >>= fun _ => step.forM (·.exec o)) := by
  rw [Run.whileRound, execAll, execAll_changes, Instruction.exec]

theorem Arms.exec_nested {line : Nat} {arms : Arms} :
    (otherwise [.choose line arms]).exec o rounds line = Run.inScope (arms.exec o rounds line) := by
  rw [exec, execAll_singleton, Instruction.exec]

/-! ## The simpler instructions do the same -/

section Simulation

variable {w : List Bool} {line : Nat} {body body' : List Instruction}

theorem Change.assign_simulates {c : Change} (hc : c.isAssign = true) :
    Simulates w (c.exec o) (c.exec o) := by
  cases c with
  | declare => cases hc
  | assign line name op value =>
      refine (Simulates.eval o line .required value).bind fun v => ?_
      split
      · exact .assign line name v
      · refine .get fun m n hagree => ?_
        rw [hagree.lookup_eq]
        cases m.env.lookup name with
        | none => exact .error _
        | some old =>
            have hupdate := fun v => Simulates.assign (w := w) line name v
            exact (Simulates.combine o line _ old v).bind hupdate m n hagree

theorem Change.exec_simulates (c : Change) : Simulates (false :: w) (c.exec o) (c.exec o) := by
  cases c with
  | assign => exact Change.assign_simulates rfl
  | declare line name value =>
      cases value with
      | none => exact (Simulates.pure _).bind fun v => .declare line name v
      | some e => exact (Simulates.eval o line .required e).bind fun v => .declare line name v

theorem Change.forM_simulates (c : Option Change) :
    Simulates (false :: w) (c.forM (·.exec o)) (c.forM (·.exec o)) := by
  cases c with
  | none => exact .pure ()
  | some c => exact c.exec_simulates

theorem Change.forM_assign_simulates {c : Option Change} (hc : c.all isAssign = true) :
    Simulates w (c.forM (·.exec o)) (c.forM (·.exec o)) := by
  cases c with
  | none => exact .pure ()
  | some c => exact Change.assign_simulates hc

theorem Simulates.headTest (test : Option Expr) :
    Simulates w (Run.headTest o line test) (Run.headTest o line test) := by
  cases test with
  | none => exact .pure true
  | some e => exact .test o line e

theorem Simulates.headTest_getD (test : Option Expr) :
    Simulates w (Run.headTest o line test) (Run.test o line (test.getD (.bool true))) := by
  cases test with
  | none => exact .pure true
  | some e => exact .test o line e

/-- The body of a `for` is in the same scope as that of the `while`, whose round has a scope besides. -/
theorem Simulates.asWhile {init step : Option Change} {test : Option Expr}
    (hstep : step.all Change.isAssign = true) (hw : false ∈ w)
    (hbody : ∀ w, Simulates (false :: w) (execAll o rounds body) (execAll o rounds body')) :
    Simulates w ((Instruction.forLoop line init test step body).exec o rounds)
      ((Instruction.asWhile line init test step body').exec o rounds) := by
  rw [Instruction.exec_forLoop, Instruction.exec_asWhile, Run.whileRound_asWhile]
  refine .inScope hw ((Change.forM_simulates init).bind fun _ => .loop (.headTest_getD test) ?_ rounds)
  refine (Simulates.tick o line).bind fun _ => .inScope_right List.mem_cons_self ?_
  refine .bind (.inScope ?_ (hbody _)) fun _ => Change.forM_assign_simulates hstep
  exact List.mem_cons_of_mem _ List.mem_cons_self

theorem Simulates.arm {next next' : Arms} (e : Expr)
    (hbody : Simulates w (Run.inScope (execAll o rounds body)) (Run.inScope (execAll o rounds body')))
    (hnext : Simulates w (next.exec o rounds line) (next'.exec o rounds line)) :
    Simulates w ((Arms.test e body next).exec o rounds line)
      ((Arms.test e body' next').exec o rounds line) := by
  rw [Arms.exec, Arms.exec]
  refine (Simulates.test o line e).bind fun b => ?_
  cases b with
  | true => exact hbody
  | false => exact hnext

end Simulation

mutual

theorem Instruction.Desugars.simulates {w : List Bool} {i i' : Instruction} (h : i.Desugars i')
    (hsteps : i.stepsAssign = true) : Simulates (false :: w) (i.exec o rounds) (i'.exec o rounds) := by
  match h with
  | .literal _ text =>
      rw [Instruction.exec]
      exact .emit _
  | .newline _ =>
      rw [Instruction.exec]
      exact .emit _
  | .value line e =>
      rw [Instruction.exec]
      refine (Simulates.eval o line .required e).bind fun v => ?_
      split
      · exact .fail line _
      · exact .emit _
  | .change c =>
      rw [Instruction.exec]
      exact c.exec_simulates
  | .choose line harms =>
      rw [Instruction.exec, Instruction.exec]
      exact harms.simulates hsteps List.mem_cons_self
  | .forLoop line init test step hbody =>
      obtain ⟨_, hsteps⟩ := Bool.and_eq_true_iff.1 hsteps
      rw [Instruction.exec_forLoop, Instruction.exec_forLoop]
      refine .inScope List.mem_cons_self ((Change.forM_simulates init).bind fun _ => ?_)
      refine .loop (.headTest test) ((Simulates.tick o line).bind fun _ => ?_) rounds
      exact .bind (.inScope List.mem_cons_self (hbody.simulates hsteps)) fun _ => Change.forM_simulates step
  | .asWhile line init test step hbody =>
      -- The step runs in the scope of a round there: what it declared would be gone in the next round.
      obtain ⟨hstep, hsteps⟩ := Bool.and_eq_true_iff.1 hsteps
      exact .asWhile hstep List.mem_cons_self fun w => hbody.simulates hsteps
  | .forEach line name e hbody =>
      rw [Instruction.exec_forEach, Instruction.exec_forEach]
      refine (Simulates.eval o line .required e).bind fun v => ?_
      split
      · exact .fail line _
      · refine .forM (fun item => (Simulates.tick o line).bind fun _ => ?_) _
        refine .inScope List.mem_cons_self ((Simulates.declare line name item).bind fun _ => ?_)
        exact hbody.simulates hsteps
  | .whileLoop line test hbody =>
      rw [Instruction.exec_whileLoop, Instruction.exec_whileLoop]
      refine .loop (.test o line test) ((Simulates.tick o line).bind fun _ => ?_) rounds
      exact .inScope List.mem_cons_self (hbody.simulates hsteps)
  | .scope line hbody =>
      rw [Instruction.exec, Instruction.exec]
      exact .inScope List.mem_cons_self (hbody.simulates hsteps)

theorem Arms.Desugars.simulates {w : List Bool} {line : Nat} {arms arms' : Arms}
    (h : arms.Desugars line arms') (hsteps : arms.stepsAssign = true) (hw : false ∈ w) :
    Simulates w (arms.exec o rounds line) (arms'.exec o rounds line) := by
  match h with
  | .done =>
      rw [Arms.exec]
      exact .pure ()
  | .otherwise hbody =>
      rw [Arms.exec, Arms.exec]
      exact .inScope hw (hbody.simulates hsteps)
  | .test e hbody hnext =>
      obtain ⟨hsteps, hnextSteps⟩ := Bool.and_eq_true_iff.1 hsteps
      exact .arm e (.inScope hw (hbody.simulates hsteps)) (hnext.simulates hnextSteps hw)
  | .nested e hbody hnext =>
      obtain ⟨hsteps, hnextSteps⟩ := Bool.and_eq_true_iff.1 hsteps
      refine .arm e (.inScope hw (hbody.simulates hsteps)) ?_
      rw [Arms.exec_nested]
      exact .inScope_right hw (hnext.simulates hnextSteps (List.mem_cons_of_mem _ hw))

theorem DesugarsAll.simulates {w : List Bool} {is is' : List Instruction} (h : DesugarsAll is is')
    (hsteps : stepsAssignAll is = true) :
    Simulates (false :: w) (execAll o rounds is) (execAll o rounds is') := by
  match h with
  | .nil =>
      rw [execAll]
      exact .pure ()
  | .cons hi his =>
      obtain ⟨hstep, hsteps⟩ := Bool.and_eq_true_iff.1 hsteps
      rw [execAll, execAll]
      exact (hi.simulates hstep).bind fun _ => his.simulates hsteps

end

/-! ## Programs -/

theorem Program.initial_agree (model : Value) : Agree [false] (initial model) (initial model) :=
  ⟨#[], #[], 0, ⟨.scope [] .nil⟩⟩

theorem DesugarsAll.outcome_eq {o : RenderOptions} {rounds : Nat} {p q : Program} {model : Value}
    (h : DesugarsAll p.instructions q.instructions) (hsteps : stepsAssignAll p.instructions = true)
    (hending : q.ending = p.ending) : q.outcome o rounds model = p.outcome o rounds model :=
  (Program.outcome_eq_of_sameEnd (h.simulates hsteps _ _ (Program.initial_agree model)) hending).symm

/-- A compiled program renders the same with any of its loops and choices in simpler terms: the same text
and warnings, or the same error, or it does not end. -/
theorem ofSource_desugars {source : String} {p q : Program} (hp : Program.ofSource source = .ok p)
    (h : DesugarsAll p.instructions q.instructions) (hending : q.ending = p.ending) (o : RenderOptions)
    (model : Value) :
    (∀ rounds, q.outcome o rounds model = p.outcome o rounds model) ∧
      q.render o model = p.render o model := by
  have hsteps := ofSource_stepsAssign hp
  refine ⟨fun rounds => h.outcome_eq hsteps hending, ?_⟩
  rw [Program.render_eq_outcome, Program.render_eq_outcome, h.outcome_eq hsteps hending]

def choosingLoop : Program :=
  ⟨[.forLoop 2 (some (.declare 2 "i" (some (.bool true)))) (some (.path ["i"]))
    (some (.assign 2 "i" .set (.bool false)))
    [.choose 3 (.test (.unary .not (.path ["i"])) [.literal 4 "one", .newline 4]
      (.test (.path ["i"]) [.literal 6 "two", .newline 6] .done))]], .lf⟩

theorem ofSource_choosingLoop :
    Program.ofSource "@\x7b\nfor (var i = true; i; i = false)\nif (!i)\none\nelse if (i)\ntwo\n\x7d" =
      .ok choosingLoop := by
  have hlines : linesOf "@\x7b\nfor (var i = true; i; i = false)\nif (!i)\none\nelse if (i)\ntwo\n\x7d" =
      [['@', '{'], "for (var i = true; i; i = false)".toList, "if (!i)".toList, ['o', 'n', 'e'],
        "else if (i)".toList, ['t', 'w', 'o'], ['}']] := by decide
  have ht : Template.ofSource
      "@\x7b\nfor (var i = true; i; i = false)\nif (!i)\none\nelse if (i)\ntwo\n\x7d" =
      .ok ⟨[.code 2 "for (var i = true; i; i = false)" 0, .code 3 "if (!i)" 0,
        .text 4 [.literal "one"] (some 0), .code 5 "else if (i)" 0, .text 6 [.literal "two"] (some 0)],
        7, .lf⟩ := by
    refine Reader.ofSource_eq_ok_iff.2 ⟨1, ?_, by decide, by decide⟩
    rw [hlines]
    cbv
  exact bind_eq_ok_iff.2 ⟨_, ht, by cbv⟩

/-- The same in simpler terms. -/
def simplerLoop : Program :=
  ⟨[.scope 2 [.change (.declare 2 "i" (some (.bool true))),
    .whileLoop 2 (.path ["i"])
      [.scope 2 [.choose 3 (.test (.unary .not (.path ["i"])) [.literal 4 "one", .newline 4]
        (.otherwise [.choose 3 (.test (.path ["i"]) [.literal 6 "two", .newline 6] .done)]))],
      .change (.assign 2 "i" .set (.bool false))]]], .lf⟩

theorem ofSource_desugars_choosingLoop : simplerLoop.render ⟨false, some 1⟩ .null = .ok ⟨"two\n", []⟩ := by
  have harms : Arms.Desugars 3
      (.test (.unary .not (.path ["i"])) [.literal 4 "one", .newline 4]
        (.test (.path ["i"]) [.literal 6 "two", .newline 6] .done))
      (.test (.unary .not (.path ["i"])) [.literal 4 "one", .newline 4]
        (.otherwise [.choose 3 (.test (.path ["i"]) [.literal 6 "two", .newline 6] .done)])) :=
    .nested _ (.refl _) (.refl 3 _)
  have h : DesugarsAll choosingLoop.instructions simplerLoop.instructions :=
    .cons (.asWhile 2 (some (.declare 2 "i" (some (.bool true)))) (some (.path ["i"]))
      (some (.assign 2 "i" .set (.bool false))) (.cons (.choose 3 harms) .nil)) .nil
  rw [(ofSource_desugars ofSource_choosingLoop h rfl ⟨false, some 1⟩ .null).2]
  cbv

end MailTemplate
