import MailTemplate.Proofs.Render.Scopes

/-!
# Renders as steps

An interpreter says how the single steps of a render are taken, in any monad; `interpretAll` puts the steps of
instructions together. The runs of a render are one way to take the steps (`execAll_eq_interpretAll`), and
two ways that agree on the steps of some lines, expressions and variables agree on all instructions that have
no others (`interpretAll_relatedOn`).
-/

namespace MailTemplate

structure Interpreter (M : Type → Type) where
  write : Chunk → M Unit
  /-- Evaluates an expression whose parts have to be there. -/
  demand : Nat → Expr → M Value
  test : Nat → Expr → M Bool
  print : Nat → Value → M Unit
  declare : Nat → String → Value → M Unit
  /-- The value of a variable that an assignment changes. -/
  read : Nat → String → M Value
  combine : Nat → BinaryOp → Value → Value → M Value
  assign : Nat → String → Value → M Unit
  /-- The items that a loop goes through. -/
  items : Nat → Value → M (List Value)
  /-- Enters the body of a loop. -/
  enter : Nat → M Unit
  /-- Makes an item the variable of a loop. -/
  take : Nat → String → Value → M Unit
  inScope : M Unit → M Unit
  /-- Enters and runs a body as long as a test holds. -/
  loop : Nat → M Bool → M Unit → M Unit

section Interpret

variable {M : Type → Type} [Monad M] (t : Interpreter M)

def Change.interpret : Change → M Unit
  | declare line name value => do
      let v ← match value with
        | some e => t.demand line e
        | none => pure .null
      t.declare line name v
  | assign line name op value => do
      let v ← t.demand line value
      match op.binary? with
      | none => t.assign line name v
      | some op => do
          let old ← t.read line name
          let v ← t.combine line op old v
          t.assign line name v

/-- The test of a `for`, which holds when there is none. -/
def Interpreter.headTest (line : Nat) : Option Expr → M Bool
  | some e => t.test line e
  | none => pure true

mutual

def Instruction.interpret : Instruction → M Unit
  | .literal _ text => t.write (.text text)
  | .newline _ => t.write .newline
  | .value line e => do t.print line (← t.demand line e)
  | .change c => c.interpret t
  | .choose line arms => arms.interpret line
  | .forLoop line init test step body => t.inScope do
      init.forM (·.interpret t)
      t.loop line (t.headTest line test) do
        t.inScope (interpretAll body)
        step.forM (·.interpret t)
  | .forEach line name e body => do
      let items ← t.items line (← t.demand line e)
      items.forM fun item => do
        t.enter line
        t.inScope do
          t.take line name item
          interpretAll body
  | .whileLoop line test body => t.loop line (t.test line test) (t.inScope (interpretAll body))
  | .scope _ body => t.inScope (interpretAll body)

def Arms.interpret (line : Nat) : Arms → M Unit
  | .done => pure ()
  | .otherwise body => t.inScope (interpretAll body)
  | .test e body next => do
      if ← t.test line e then t.inScope (interpretAll body)
      else next.interpret line

def interpretAll : List Instruction → M Unit
  | [] => pure ()
  | i :: is => do
      i.interpret
      interpretAll is

end

end Interpret

/-! ## Runs -/

/-- The steps of a run whose loops test at most `rounds` times. -/
def Run.interpreter (o : RenderOptions) (rounds : Nat) : Interpreter Run where
  write := emit
  demand line := eval o line .required
  test := Run.test o
  print line v := if v.isComposite then fail line (.noText v.kind) else emit (.text v.display)
  declare line name v := update line (·.declare name v)
  read line name := do
    match (← get).env.lookup name with
    | none => fail line (.undeclared name)
    | some v => pure v
  combine := Run.combine o
  assign line name v := update line (·.assign name v)
  items line v :=
    match v.elements? with
    | none => fail line (.noSequence v.kind)
    | some items => pure items
  enter := tick o
  take line name item := update line (·.declare name item)
  inScope := Run.inScope
  loop line test body := Run.loop test (do tick o line; body) rounds

theorem Run.interpreter_read (o : RenderOptions) (rounds line : Nat) (name : String) (m : Machine) :
    (Run.interpreter o rounds).read line name m =
      (match m.env.lookup name with
        | none => Run.fail line (.undeclared name)
        | some v => pure v : Run Value) m :=
  rfl

section Exec

variable (o : RenderOptions) (rounds : Nat)

theorem Change.exec_eq_interpret (c : Change) : c.exec o = c.interpret (Run.interpreter o rounds) := by
  cases c with
  | declare line name value => cases value <;> rfl
  | assign line name op value =>
      rw [exec, interpret]
      refine bind_congr fun v => ?_
      cases op.binary? with
      | none => rfl
      | some op =>
          simp only [Run.interpreter, bind_assoc]
          refine bind_congr fun m => ?_
          cases m.env.lookup name <;> rfl

theorem Change.forM_exec_eq (c : Option Change) :
    (c.forM (·.exec o) : Run Unit) = c.forM (·.interpret (Run.interpreter o rounds)) := by
  cases c with
  | none => rfl
  | some c => exact c.exec_eq_interpret o rounds

mutual

theorem Instruction.exec_eq_interpret (i : Instruction) :
    i.exec o rounds = i.interpret (Run.interpreter o rounds) := by
  match i with
  | .literal _ text => rw [Instruction.exec, Instruction.interpret]; rfl
  | .newline _ => rw [Instruction.exec, Instruction.interpret]; rfl
  | .value line e => rw [Instruction.exec, Instruction.interpret]; rfl
  | .change c => rw [Instruction.exec, Instruction.interpret, c.exec_eq_interpret o rounds]
  | .choose line arms => rw [Instruction.exec, Instruction.interpret, arms.exec_eq_interpret line]
  -- The rounds of a loop are the same once the entry is told apart from the body.
  | .forLoop line init test step body =>
      rw [Instruction.exec_forLoop, Instruction.interpret, Change.forM_exec_eq o rounds init]
      have hround : Run.forRound o rounds line step body = Run.tick o line >>= fun _ =>
          Run.inScope (interpretAll (Run.interpreter o rounds) body) >>= fun _ =>
            step.forM (·.interpret (Run.interpreter o rounds)) := by
        rw [Run.forRound, execAll_eq_interpretAll body, Change.forM_exec_eq o rounds step]
      rw [hround]
      cases test <;> rfl
  | .forEach line name e body =>
      rw [Instruction.exec_forEach, Instruction.interpret]
      refine bind_congr fun v => ?_
      cases hitems : v.elements? with
      | none => simp only [Run.interpreter, hitems]; rfl
      | some items =>
          have hround : Run.forEachRound o rounds line name body = fun item => Run.tick o line >>= fun _ =>
              Run.inScope (Run.update line (·.declare name item) >>= fun _ =>
                interpretAll (Run.interpreter o rounds) body) := by
            funext item
            rw [Run.forEachRound, execAll_eq_interpretAll body]
          simp only [Run.interpreter, hitems, hround]
          rfl
  | .whileLoop line test body =>
      rw [Instruction.exec_whileLoop, Instruction.interpret, Run.whileRound, execAll_eq_interpretAll body]
      rfl
  | .scope _ body =>
      rw [Instruction.exec, Instruction.interpret, execAll_eq_interpretAll body]
      rfl

theorem Arms.exec_eq_interpret (line : Nat) (arms : Arms) :
    arms.exec o rounds line = arms.interpret (Run.interpreter o rounds) line := by
  match arms with
  | .done => rw [Arms.exec, Arms.interpret]
  | .otherwise body =>
      rw [Arms.exec, Arms.interpret, execAll_eq_interpretAll body]
      rfl
  | .test e body next =>
      rw [Arms.exec, Arms.interpret, execAll_eq_interpretAll body, next.exec_eq_interpret line]
      rfl

theorem execAll_eq_interpretAll (is : List Instruction) :
    execAll o rounds is = interpretAll (Run.interpreter o rounds) is := by
  match is with
  | [] => rw [execAll, interpretAll]
  | i :: is => rw [execAll, interpretAll, i.exec_eq_interpret, execAll_eq_interpretAll is]

end

end Exec

/-! ## The lines and the expressions of instructions -/

mutual

/-- The lines of an instruction and of those within it. An instruction comes before its parts, and in a `for`
both changes come before the body. -/
def Instruction.lineNumbers : Instruction → List Nat
  | .literal line _ | .value line _ | .newline line => [line]
  | .change c => [c.line]
  | .choose line arms => line :: arms.lineNumbers
  | .forLoop line init _ step body =>
      line :: ((init.map Change.line).toList ++ ((step.map Change.line).toList ++ lineNumbersOf body))
  | .forEach line _ _ body | .whileLoop line _ body | .scope line body => line :: lineNumbersOf body

def Arms.lineNumbers : Arms → List Nat
  | .done => []
  | .otherwise body => lineNumbersOf body
  | .test _ body next => lineNumbersOf body ++ next.lineNumbers

def lineNumbersOf : List Instruction → List Nat
  | [] => []
  | i :: is => i.lineNumbers ++ lineNumbersOf is

end

def Change.exprs : Change → List Expr
  | declare _ _ value => value.toList
  | assign _ _ _ value => [value]

mutual

/-- The expressions of an instruction and of those within it. -/
def Instruction.exprs : Instruction → List Expr
  | .literal .. | .newline _ => []
  | .value _ e => [e]
  | .change c => c.exprs
  | .choose _ arms => arms.exprs
  | .forLoop _ init test step body =>
      init.elim [] Change.exprs ++ (test.toList ++ (step.elim [] Change.exprs ++ exprsOf body))
  | .forEach _ _ e body | .whileLoop _ e body => e :: exprsOf body
  | .scope _ body => exprsOf body

def Arms.exprs : Arms → List Expr
  | .done => []
  | .otherwise body => exprsOf body
  | .test e body next => e :: (exprsOf body ++ next.exprs)

def exprsOf : List Instruction → List Expr
  | [] => []
  | i :: is => i.exprs ++ exprsOf is

end

/-! ## Steps that agree -/

/-- Two ways to take steps agree in the sense of `R Q`, where `Q` holds of the results, as long as the lines of
the steps are in `L` and the variables that are read or written in `A`: expressions in `E` that are demanded
give values in `V`, and no other values are stored, printed or gone through. -/
structure Interpreter.RelatedOn {M N : Type → Type} [Monad M] [Monad N]
    (R : {α : Type} → (α → Prop) → M α → N α → Prop) (L : Nat → Prop) (E : Expr → Prop) (A : String → Prop)
    (V : Value → Prop) (s : Interpreter M) (t : Interpreter N) : Prop where
  pure {α : Type} {Q : α → Prop} {a : α} : Q a → R Q (pure a) (pure a)
  bind {α β : Type} {Q : α → Prop} {Q' : β → Prop} {x : M α} {y : N α} {f : α → M β} {g : α → N β} :
    R Q x y → (∀ a, Q a → R Q' (f a) (g a)) → R Q' (x >>= f) (y >>= g)
  write (c : Chunk) : R (fun _ => True) (s.write c) (t.write c)
  demand (line : Nat) {e : Expr} : L line → E e → R V (s.demand line e) (t.demand line e)
  test (line : Nat) {e : Expr} : L line → E e → R (fun _ => True) (s.test line e) (t.test line e)
  print (line : Nat) {v : Value} : L line → V v → R (fun _ => True) (s.print line v) (t.print line v)
  null : V .null
  declare (line : Nat) (name : String) {v : Value} : L line → V v →
    R (fun _ => True) (s.declare line name v) (t.declare line name v)
  read (line : Nat) (name : String) : L line → A name → R V (s.read line name) (t.read line name)
  combine (line : Nat) (op : BinaryOp) {l r : Value} : L line → V l → V r →
    R V (s.combine line op l r) (t.combine line op l r)
  assign (line : Nat) (name : String) {v : Value} : L line → A name → V v →
    R (fun _ => True) (s.assign line name v) (t.assign line name v)
  items (line : Nat) {v : Value} : L line → V v →
    R (fun items => ∀ item ∈ items, V item) (s.items line v) (t.items line v)
  enter (line : Nat) : L line → R (fun _ => True) (s.enter line) (t.enter line)
  take (line : Nat) (name : String) {item : Value} : L line → V item →
    R (fun _ => True) (s.take line name item) (t.take line name item)
  inScope {x : M Unit} {y : N Unit} : R (fun _ => True) x y →
    R (fun _ => True) (s.inScope x) (t.inScope y)
  loop (line : Nat) {test : M Bool} {test' : N Bool} {body : M Unit} {body' : N Unit} : L line →
    R (fun _ => True) test test' → R (fun _ => True) body body' →
    R (fun _ => True) (s.loop line test body) (t.loop line test' body')

section RelatedOn

variable {M N : Type → Type} [Monad M] [Monad N] {R : {α : Type} → (α → Prop) → M α → N α → Prop}
  {L : Nat → Prop} {E : Expr → Prop} {A : String → Prop} {V : Value → Prop} {s : Interpreter M}
  {t : Interpreter N}

theorem Interpreter.RelatedOn.forM (h : s.RelatedOn R L E A V t) {γ : Type} {f : γ → M PUnit}
    {g : γ → N PUnit} {cs : List γ} (hfg : ∀ c ∈ cs, R (fun _ => True) (f c) (g c)) :
    R (fun _ => True) (cs.forM f) (cs.forM g) := by
  induction cs with
  | nil => exact h.pure trivial
  | cons c cs ih =>
      obtain ⟨hc, hcs⟩ := List.forall_mem_cons.1 hfg
      exact h.bind hc fun _ _ => ih hcs

theorem Interpreter.RelatedOn.headTest (h : s.RelatedOn R L E A V t) {line : Nat} (hline : L line)
    {test : Option Expr} (htest : ∀ e ∈ test.toList, E e) :
    R (fun _ => True) (s.headTest line test) (t.headTest line test) := by
  cases test with
  | none => exact h.pure trivial
  | some e => exact h.test line hline (htest e List.mem_cons_self)

theorem Change.interpret_relatedOn (h : s.RelatedOn R L E A V t) {c : Change} (hL : L c.line)
    (hE : ∀ e ∈ c.exprs, E e) (hA : ∀ x ∈ c.assigned, A x) :
    R (fun _ => True) (c.interpret s) (c.interpret t) := by
  cases c with
  | declare line name value =>
      cases value with
      | none => exact h.bind (h.pure h.null) fun v hv => h.declare line name hL hv
      | some e =>
          exact h.bind (h.demand line hL (hE e List.mem_cons_self)) fun v hv => h.declare line name hL hv
  | assign line name op value =>
      have hname : A name := hA name List.mem_cons_self
      refine h.bind (h.demand line hL (hE value List.mem_cons_self)) fun v hv => ?_
      cases op.binary? with
      | none => exact h.assign line name hL hname hv
      | some op =>
          refine h.bind (h.read line name hL hname) fun old hold => ?_
          exact h.bind (h.combine line op hL hold hv) fun v hv => h.assign line name hL hname hv

theorem Change.forM_relatedOn (h : s.RelatedOn R L E A V t) {c : Option Change}
    (hL : ∀ n ∈ (c.map Change.line).toList, L n) (hE : ∀ e ∈ c.elim [] Change.exprs, E e)
    (hA : ∀ x ∈ c.elim [] Change.assigned, A x) :
    R (fun _ => True) (c.forM (·.interpret s) : M PUnit) (c.forM (·.interpret t)) := by
  cases c with
  | none => exact h.pure trivial
  | some c => exact c.interpret_relatedOn h (hL c.line List.mem_cons_self) hE hA

mutual

theorem Instruction.interpret_relatedOn (h : s.RelatedOn R L E A V t) {i : Instruction}
    (hL : ∀ n ∈ i.lineNumbers, L n) (hE : ∀ e ∈ i.exprs, E e) (hA : ∀ x ∈ i.assigned, A x) :
    R (fun _ => True) (i.interpret s) (i.interpret t) := by
  match i with
  | .literal _ text =>
      rw [Instruction.interpret, Instruction.interpret]
      exact h.write _
  | .newline _ =>
      rw [Instruction.interpret, Instruction.interpret]
      exact h.write _
  | .value line e =>
      have hline : L line := hL line List.mem_cons_self
      rw [Instruction.interpret, Instruction.interpret]
      exact h.bind (h.demand line hline (hE e List.mem_cons_self)) fun v hv => h.print line hline hv
  | .change c =>
      rw [Instruction.interpret, Instruction.interpret]
      exact c.interpret_relatedOn h (hL c.line List.mem_cons_self) hE hA
  | .choose line arms =>
      obtain ⟨hline, harms⟩ := List.forall_mem_cons.1 hL
      rw [Instruction.interpret, Instruction.interpret]
      exact Arms.interpret_relatedOn h hline harms hE hA
  | .forLoop line init test step body =>
      rw [Instruction.lineNumbers, List.forall_mem_cons, List.forall_mem_append, List.forall_mem_append] at hL
      rw [Instruction.exprs, List.forall_mem_append, List.forall_mem_append, List.forall_mem_append] at hE
      rw [Instruction.assigned, List.forall_mem_append, List.forall_mem_append] at hA
      obtain ⟨hline, hinitL, hstepL, hbodyL⟩ := hL
      obtain ⟨hinitE, htest, hstepE, hbodyE⟩ := hE
      obtain ⟨hinitA, hbodyA, hstepA⟩ := hA
      rw [Instruction.interpret, Instruction.interpret]
      refine h.inScope (h.bind (Change.forM_relatedOn h hinitL hinitE hinitA) fun _ _ => ?_)
      refine h.loop line hline (h.headTest hline htest) ?_
      refine h.bind (h.inScope (interpretAll_relatedOn h hbodyL hbodyE hbodyA)) fun _ _ => ?_
      exact Change.forM_relatedOn h hstepL hstepE hstepA
  | .forEach line name e body =>
      obtain ⟨hline, hbodyL⟩ := List.forall_mem_cons.1 hL
      obtain ⟨he, hbodyE⟩ := List.forall_mem_cons.1 hE
      rw [Instruction.interpret, Instruction.interpret]
      refine h.bind (h.demand line hline he) fun v hv => h.bind (h.items line hline hv) fun items hitems => ?_
      refine h.forM fun item hitem => h.bind (h.enter line hline) fun _ _ => h.inScope ?_
      refine h.bind (h.take line name hline (hitems item hitem)) fun _ _ => ?_
      exact interpretAll_relatedOn h hbodyL hbodyE hA
  | .whileLoop line test body =>
      obtain ⟨hline, hbodyL⟩ := List.forall_mem_cons.1 hL
      obtain ⟨htest, hbodyE⟩ := List.forall_mem_cons.1 hE
      rw [Instruction.interpret, Instruction.interpret]
      exact h.loop line hline (h.test line hline htest) (h.inScope (interpretAll_relatedOn h hbodyL hbodyE hA))
  | .scope line body =>
      obtain ⟨_, hbodyL⟩ := List.forall_mem_cons.1 hL
      rw [Instruction.interpret, Instruction.interpret]
      exact h.inScope (interpretAll_relatedOn h hbodyL hE hA)

theorem Arms.interpret_relatedOn (h : s.RelatedOn R L E A V t) {line : Nat} (hline : L line) {arms : Arms}
    (hL : ∀ n ∈ arms.lineNumbers, L n) (hE : ∀ e ∈ arms.exprs, E e) (hA : ∀ x ∈ arms.assigned, A x) :
    R (fun _ => True) (arms.interpret s line) (arms.interpret t line) := by
  match arms with
  | .done =>
      rw [Arms.interpret, Arms.interpret]
      exact h.pure trivial
  | .otherwise body =>
      rw [Arms.interpret, Arms.interpret]
      exact h.inScope (interpretAll_relatedOn h hL hE hA)
  | .test e body next =>
      obtain ⟨hbodyL, hnextL⟩ := List.forall_mem_append.1 hL
      obtain ⟨he, hrest⟩ := List.forall_mem_cons.1 hE
      obtain ⟨hbodyE, hnextE⟩ := List.forall_mem_append.1 hrest
      obtain ⟨hbodyA, hnextA⟩ := List.forall_mem_append.1 hA
      rw [Arms.interpret, Arms.interpret]
      refine h.bind (h.test line hline he) fun b _ => ?_
      cases b with
      | true => exact h.inScope (interpretAll_relatedOn h hbodyL hbodyE hbodyA)
      | false => exact Arms.interpret_relatedOn h hline hnextL hnextE hnextA

theorem interpretAll_relatedOn (h : s.RelatedOn R L E A V t) {is : List Instruction}
    (hL : ∀ n ∈ lineNumbersOf is, L n) (hE : ∀ e ∈ exprsOf is, E e) (hA : ∀ x ∈ assignedNames is, A x) :
    R (fun _ => True) (interpretAll s is) (interpretAll t is) := by
  match is with
  | [] =>
      rw [interpretAll, interpretAll]
      exact h.pure trivial
  | i :: is =>
      obtain ⟨hiL, hisL⟩ := List.forall_mem_append.1 hL
      obtain ⟨hiE, hisE⟩ := List.forall_mem_append.1 hE
      obtain ⟨hiA, hisA⟩ := List.forall_mem_append.1 hA
      rw [interpretAll, interpretAll]
      refine h.bind (Instruction.interpret_relatedOn h hiL hiE hiA) fun _ _ => ?_
      exact interpretAll_relatedOn h hisL hisE hisA

end

end RelatedOn

/-! ## Steps that agree everywhere -/

/-- Two ways to take steps agree whatever the lines and the variables are. -/
abbrev Interpreter.Related {M N : Type → Type} [Monad M] [Monad N]
    (R : {α : Type} → (α → Prop) → M α → N α → Prop) (E : Expr → Prop) (V : Value → Prop)
    (s : Interpreter M) (t : Interpreter N) : Prop :=
  s.RelatedOn R (fun _ => True) E (fun _ => True) V t

section Related

variable {M N : Type → Type} [Monad M] [Monad N] {R : {α : Type} → (α → Prop) → M α → N α → Prop}
  {E : Expr → Prop} {V : Value → Prop} {s : Interpreter M} {t : Interpreter N}

theorem Change.forM_related (h : s.Related R E V t) {c : Option Change}
    (hE : ∀ e ∈ c.elim [] Change.exprs, E e) :
    R (fun _ => True) (c.forM (·.interpret s) : M PUnit) (c.forM (·.interpret t)) :=
  Change.forM_relatedOn h (fun _ _ => trivial) hE fun _ _ => trivial

theorem Instruction.interpret_related (h : s.Related R E V t) {i : Instruction}
    (hE : ∀ e ∈ i.exprs, E e) : R (fun _ => True) (i.interpret s) (i.interpret t) :=
  Instruction.interpret_relatedOn h (fun _ _ => trivial) hE fun _ _ => trivial

theorem interpretAll_related (h : s.Related R E V t) {is : List Instruction}
    (hE : ∀ e ∈ exprsOf is, E e) : R (fun _ => True) (interpretAll s is) (interpretAll t is) :=
  interpretAll_relatedOn h (fun _ _ => trivial) hE fun _ _ => trivial

end Related

end MailTemplate
