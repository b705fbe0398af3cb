import MailTemplate.Proofs.Render.Appraisal
import MailTemplate.Proofs.Render.Interpreter

/-!
# The journal of a render

What happens in a render, one event after another: what the variables become, what is printed, stored and gone
through, which operators are applied to which values, and which loop bodies are entered. Of the options only the
limit on iterations makes a difference to it. Everything that a render gives can be read off its journal
(`Program.outcome_eq_recount`).
-/

namespace MailTemplate

open Text

inductive Event where
  /-- The variables are these from now on. -/
  | variables (env : Environment)
  | written (c : Chunk)
  | printed (v : Value)
  /-- An instruction on the line applies an operator. -/
  | applied (line : Nat) (a : Application)
  | stored (name : String) (v : Value)
  /-- A loop goes through the items of the value. -/
  | iterated (v : Value)
  | bound (name : String) (item : Value)
  /-- A loop on the line enters its body. -/
  | entered (line : Nat)

namespace Event

/-- What the event adds to the output. -/
def chunk? : Event → Option Chunk
  | written c => some c
  | printed v => some (.text v.display)
  | _ => none

def zeroDivision? : Event → Option Warning
  | applied line a => a.zeroDivision? line
  | _ => none

def isEntry : Event → Bool
  | entered _ => true
  | _ => false

/-- No result and no count of a run shows the event. -/
def Quiet (e : Event) : Prop := e.chunk? = none ∧ e.zeroDivision? = none ∧ e.isEntry = false

end Event

structure Journal where
  env : Environment
  events : List Event

namespace Journal

/-- How many loop bodies were entered. -/
def entries (j : Journal) : Nat := j.events.countP Event.isEntry

def chunks (j : Journal) : List Chunk := j.events.filterMap Event.chunk?

/-- The warnings of all divisions by zero, in their order. -/
def zeroDivisions (j : Journal) : List Warning := j.events.filterMap Event.zeroDivision?

def note (j : Journal) (events : List Event) : Journal := { j with events := j.events ++ events }

def become (j : Journal) (env : Environment) : Journal := ⟨env, j.events ++ [.variables env]⟩

def initial (model : Value) : Journal := ⟨.new model, [.variables (.new model)]⟩

variable {j : Journal} {events : List Event} {env : Environment}

@[simp]
theorem chunks_note : (j.note events).chunks = j.chunks ++ events.filterMap Event.chunk? :=
  List.filterMap_append

@[simp]
theorem zeroDivisions_note :
    (j.note events).zeroDivisions = j.zeroDivisions ++ events.filterMap Event.zeroDivision? :=
  List.filterMap_append

@[simp]
theorem entries_note : (j.note events).entries = j.entries + events.countP Event.isEntry :=
  List.countP_append

@[simp]
theorem chunks_become : (j.become env).chunks = j.chunks :=
  List.filterMap_append.trans (List.append_nil _)

@[simp]
theorem zeroDivisions_become : (j.become env).zeroDivisions = j.zeroDivisions :=
  List.filterMap_append.trans (List.append_nil _)

@[simp]
theorem entries_become : (j.become env).entries = j.entries := List.countP_append

end Journal

/-- Steps of a render that keep a journal, also of what led to an error. -/
abbrev Journaled := EStateM Halt Journal

namespace Journaled

/-- The journal when a run ends, in whichever way. -/
def last {α : Type} : EStateM.Result Halt Journal α → Journal
  | .ok _ j | .error _ j => j

def fail {α : Type} (line : Nat) (cause : FaultCause) : Journaled α := throw (.error ⟨line, cause⟩)

def record (e : Event) : Journaled Unit := modify fun j => j.note [e]

def conclude {α : Type} (line : Nat) (x : Environment → Appraisal α) : Journaled α := fun j =>
  let j' := j.note ((x j.env).applications.map (.applied line))
  match (x j.env).result with
  | .ok a => .ok a j'
  | .error e => .error (.error e) j'

/-- Changes the variables, unless that is an error. -/
def update (line : Nat) (f : Environment → Except FaultCause Environment) : Journaled Unit := fun j =>
  match f j.env with
  | .ok env => .ok () (j.become env)
  | .error cause => .error (.error ⟨line, cause⟩) j

/-- Enters a loop body, if the limit allows one more. -/
def enter (limit : Option Nat) (line : Nat) : Journaled Unit := fun j =>
  match limit with
  | some n =>
      if j.entries < n then .ok () (j.note [.entered line])
      else .error (.error ⟨line, .iterationLimit n⟩) j
  | none => .ok () (j.note [.entered line])

def inScope {α : Type} (x : Journaled α) : Journaled α := fun j =>
  match x (j.become j.env.push) with
  | .ok a j => .ok a (j.become j.env.pop)
  | .error e j => .error e (j.become j.env.pop)

/-- Enters and runs `body` as long as `test` holds, but tests at most `rounds` times. -/
def loop (limit : Option Nat) (line : Nat) (test : Journaled Bool) (body : Journaled Unit) :
    Nat → Journaled Unit
  | 0 => throw .unfinished
  | rounds + 1 => do
      if ← test then
        enter limit line
        body
        loop limit line test body rounds

def interpreter (limit : Option Nat) (rounds : Nat) : Interpreter Journaled where
  write c := record (.written c)
  demand line e := conclude line (e.appraise · line .required)
  test line e := return (← conclude line (e.appraise · line .optional)).isTruthy
  print line v := if v.isComposite then fail line (.noText v.kind) else record (.printed v)
  declare line name v := do
    update line (·.declare name v)
    record (.stored name v)
  read line name := do
    match (← get).env.lookup name with
    | none => fail line (.undeclared name)
    | some v => pure v
  combine line op l r := conclude line fun _ => Application.appraise line ⟨op, l, r⟩
  assign line name v := do
    update line (·.assign name v)
    record (.stored name v)
  items line v :=
    match v.elements? with
    | none => fail line (.noSequence v.kind)
    | some items => do
        record (.iterated v)
        pure items
  enter := enter limit
  take line name item := do
    update line (·.declare name item)
    record (.bound name item)
  inScope := inScope
  loop line test body := loop limit line test body rounds

theorem interpreter_read (limit : Option Nat) (rounds line : Nat) (name : String) (j : Journal) :
    (interpreter limit rounds).read line name j =
      (match j.env.lookup name with
        | none => fail line (.undeclared name)
        | some v => pure v : Journaled Value) j :=
  rfl

end Journaled

namespace Program

/-- The run of a program that keeps a journal. -/
def journaled (limit : Option Nat) (rounds : Nat) (p : Program) (model : Value) :
    EStateM.Result Halt Journal Unit :=
  interpretAll (Journaled.interpreter limit rounds) p.instructions (.initial model)

/-- What happens in a render whose loops test at most `rounds` times. -/
def journal (limit : Option Nat) (rounds : Nat) (p : Program) (model : Value) : Journal :=
  Journaled.last (p.journaled limit rounds model)

/-- The text and warnings that a journal accounts for. -/
def retold (p : Program) (strict : Bool) (j : Journal) : Rendered :=
  ⟨j.chunks.foldl (fun s c => s ++ c.render p.ending) "", if strict then j.zeroDivisions else []⟩

/-- What a render comes to by its journal. -/
def recount (o : RenderOptions) (rounds : Nat) (p : Program) (model : Value) : Except Halt Rendered :=
  match p.journaled o.limit rounds model with
  | .ok _ j => .ok (p.retold o.strict j)
  | .error e _ => .error e

end Program

/-! ## Invariants of journals -/

namespace Journaled

variable {I : Journal → Prop} {limit : Option Nat} {line : Nat}

theorem last_maintained {α : Type} {Q : α → Prop} {x : Journaled α} (hx : Maintains I Q x) {j : Journal}
    (hj : I j) : I (last (x j)) := by
  have hends := hx j hj
  generalize x j = r at hends ⊢
  cases hends with
  | ok _ hlast => exact hlast
  | error hlast => exact hlast

theorem inScope_maintains {α : Type} {Q : α → Prop} {x : Journaled α}
    (hpush : ∀ j, I j → I (j.become j.env.push)) (hpop : ∀ j, I j → I (j.become j.env.pop))
    (hx : Maintains I Q x) : Maintains I Q (inScope x) := by
  intro j hj
  have hends := hx _ (hpush j hj)
  unfold inScope
  generalize x (j.become j.env.push) = r at hends ⊢
  cases hends with
  | ok ha hj => exact .ok ha (hpop _ hj)
  | error hj => exact .error (hpop _ hj)

theorem enter_maintains (hI : ∀ j, I j → I (j.note [.entered line])) :
    Maintains I (fun _ => True) (enter limit line) := by
  intro j hj
  unfold enter
  split
  · split
    · exact .ok trivial (hI j hj)
    · exact .error hj
  · exact .ok trivial (hI j hj)

theorem loop_maintains (hI : ∀ j, I j → I (j.note [.entered line])) {test : Journaled Bool}
    {body : Journaled Unit} (htest : Maintains I (fun _ => True) test)
    (hbody : Maintains I (fun _ => True) body) (rounds : Nat) :
    Maintains I (fun _ => True) (loop limit line test body rounds) := by
  induction rounds with
  | zero => exact .throw _
  | succ rounds ih =>
      refine htest.bind fun b _ => ?_
      cases b with
      | false => exact .pure trivial
      | true => exact (enter_maintains hI).bind fun _ _ => hbody.bind fun _ _ => ih

end Journaled

/-! ## Runs that make appraisals -/

namespace Run

variable (o : RenderOptions) (line : Nat)

/-- Takes the result of an appraisal, with the warnings that it deserves. -/
def conclude {α : Type} (r : Environment → Appraisal α) : Run α := fun m =>
  match (r m.env).checked o.strict line with
  | .ok (a, ws) => .ok a { m with warnings := m.warnings ++ ws }
  | .error e => .error (.error e) m

section Conclude

variable {o line} {α : Type} {r r' : Environment → Appraisal α} {m m' : Machine}

theorem conclude_congr (h : r' m.env = r m.env) : conclude o line r' m = conclude o line r m := by
  simp only [conclude, h]

theorem result_of_conclude {a : α} (h : conclude o line r m = .ok a m') : (r m.env).result = .ok a := by
  unfold conclude Appraisal.checked at h
  cases hresult : (r m.env).result <;> rw [hresult] at h <;> cases h
  rfl

theorem conclude_error {e : Halt} (h : conclude o line r m = .error e m') :
    (∃ err, e = .error err) ∧ m' = m := by
  unfold conclude Appraisal.checked at h
  cases hresult : (r m.env).result <;> rw [hresult] at h <;> cases h
  exact ⟨⟨_, rfl⟩, rfl⟩

end Conclude

theorem eval_eq_conclude (mode : Resolution) (e : Expr) :
    eval o line mode e = conclude o line (e.appraise · line mode) := by
  funext m
  rw [eval, conclude, ← Expr.eval_eq_checked]
  rcases e.eval o.strict m.env line mode with _ | ⟨_, _⟩ <;> rfl

theorem combine_eq_conclude (op : BinaryOp) (l r : Value) :
    combine o line op l r = conclude o line fun _ => Application.appraise line ⟨op, l, r⟩ := by
  funext m
  rw [combine, conclude, Application.checked_appraise]
  rcases op.eval o.strict line l r with _ | ⟨_, _⟩ <;> rfl

end Run

/-! ## Runs and their journals -/

/-- The state of a run is what the journal says. -/
structure Journal.Tells (strict : Bool) (j : Journal) (m : Machine) : Prop where
  env : m.env = j.env
  output : m.output.toList = j.chunks
  warnings : m.warnings.toList = if strict then j.zeroDivisions else []
  iterations : m.iterations = j.entries

namespace Journal.Tells

variable {strict : Bool} {j : Journal} {m m' : Machine}

theorem note (h : j.Tells strict m) {events : List Event} (henv : m'.env = m.env)
    (houtput : m'.output.toList = m.output.toList ++ events.filterMap Event.chunk?)
    (hwarnings : m'.warnings.toList = m.warnings.toList ++
      if strict then events.filterMap Event.zeroDivision? else [])
    (hiterations : m'.iterations = m.iterations + events.countP Event.isEntry) :
    (j.note events).Tells strict m' where
  env := henv.trans h.env
  output := by rw [houtput, h.output, chunks_note]
  warnings := by
    rw [hwarnings, h.warnings, zeroDivisions_note]
    cases strict <;> rfl
  iterations := by rw [hiterations, h.iterations, entries_note]

theorem note_quiet (h : j.Tells strict m) {e : Event} (he : e.Quiet) : (j.note [e]).Tells strict m := by
  obtain ⟨hchunk, hzero, hentry⟩ := he
  refine h.note rfl ?_ ?_ ?_
  · simp [hchunk]
  · simp [hzero]
  · simp [hentry]

theorem become (h : j.Tells strict m) (env : Environment) :
    (j.become env).Tells strict { m with env } where
  env := rfl
  output := by rw [h.output, chunks_become]
  warnings := by rw [h.warnings, zeroDivisions_become]
  iterations := by rw [h.iterations, entries_become]

end Journal.Tells

/-- Both runs end well, with one result in `Q` and a state that the journal tells, or with one error; without a
limit they also count the same iterations then. -/
inductive SameAccount {α : Type} (o : RenderOptions) (Q : α → Prop) :
    EStateM.Result Halt Machine α → EStateM.Result Halt Journal α → Prop
  | ok {a m j} : Q a → j.Tells o.strict m → SameAccount o Q (.ok a m) (.ok a j)
  | error {e m j} : (o.limit = none → m.iterations = j.entries) → SameAccount o Q (.error e m) (.error e j)

/-- The journal of the second run accounts for the first one. -/
def Accounted (o : RenderOptions) {α : Type} (Q : α → Prop) (x : Run α) (y : Journaled α) : Prop :=
  ∀ m j, j.Tells o.strict m → SameAccount o Q (x m) (y j)

namespace Accounted

variable {α β : Type} {o : RenderOptions} {Q : α → Prop} {Q' : β → Prop} {x : Run α} {y : Journaled α}
  {f : α → Run β} {g : α → Journaled β} {line : Nat}

theorem pure {a : α} (ha : Q a) : Accounted o Q (pure a : Run α) (pure a) := fun _ _ h => .ok ha h

theorem fail (cause : FaultCause) :
    Accounted o Q (Run.fail line cause : Run α) (Journaled.fail line cause) :=
  fun _ _ h => .error fun _ => h.iterations

theorem bind (hxy : Accounted o Q x y) (hfg : ∀ a, Q a → Accounted o Q' (f a) (g a)) :
    Accounted o Q' (x >>= f) (y >>= g) := by
  intro m j h
  change SameAccount o Q' (EStateM.bind x f m) (EStateM.bind y g j)
  have hends := hxy m j h
  unfold EStateM.bind
  generalize x m = r, y j = r' at hends ⊢
  cases hends with
  | ok ha htells => exact hfg _ ha _ _ htells
  | error hcount => exact .error hcount

theorem record {e : Event} (he : e.Quiet) {a : α} (ha : Q a) :
    Accounted o Q (Pure.pure a) (Journaled.record e >>= fun _ => Pure.pure a) :=
  fun _ _ h => .ok ha (h.note_quiet he)

/-- What goes on with the state as it is. -/
theorem get {f : Machine → Run α} {g : Journal → Journaled α}
    (hfg : ∀ m j, j.Tells o.strict m → SameAccount o Q (f m m) (g j j)) :
    Accounted o Q (get >>= f) (get >>= g) :=
  fun m j h => hfg m j h

theorem emit {c : Chunk} {e : Event} (hchunk : e.chunk? = some c) (hzero : e.zeroDivision? = none)
    (hentry : e.isEntry = false) : Accounted o (fun _ => True) (Run.emit c) (Journaled.record e) := by
  refine fun m j h => .ok trivial (h.note rfl ?_ ?_ ?_)
  · simp [hchunk]
  · simp [hzero]
  · simp [hentry]

theorem conclude (o : RenderOptions) (line : Nat) (r : Environment → Appraisal α) :
    Accounted o (fun _ => True) (Run.conclude o line r) (Journaled.conclude line r) := by
  intro m j h
  obtain ⟨env, output, warnings, iterations⟩ := m
  obtain rfl : env = j.env := h.env
  simp only [Run.conclude, Journaled.conclude, Appraisal.checked]
  cases (r j.env).result with
  | error e => exact .error fun _ => h.iterations.trans (by simp [Event.isEntry])
  | ok a =>
      refine .ok trivial (h.note rfl ?_ ?_ ?_)
      · simp [Event.chunk?]
      · cases o.strict <;> simp [Event.zeroDivision?, List.filterMap_map, Function.comp_def]
      · simp [Event.isEntry]

theorem update (line : Nat) (f : Environment → Except FaultCause Environment) (e : Event) (he : e.Quiet) :
    Accounted o (fun _ => True) (Run.update line f)
      (Journaled.update line f >>= fun _ => Journaled.record e) := by
  intro m j h
  change SameAccount o _ (Run.update line f m) (EStateM.bind (Journaled.update line f) _ j)
  unfold EStateM.bind Run.update Journaled.update
  rw [h.env]
  cases f j.env with
  | error cause => exact .error fun _ => h.iterations
  | ok env => exact .ok trivial ((h.become env).note_quiet he)

theorem enter (o : RenderOptions) :
    Accounted o (fun _ => True) (Run.tick o line) (Journaled.enter o.limit line) := by
  intro m j h
  have hentered : (j.note [.entered line]).Tells o.strict { m with iterations := m.iterations + 1 } := by
    refine h.note rfl ?_ ?_ rfl
    · simp [Event.chunk?]
    · simp [Event.zeroDivision?]
  simp only [Run.tick, Journaled.enter]
  cases hlimit : o.limit with
  | none => exact .ok trivial hentered
  | some n =>
      simp only [h.iterations] at hentered ⊢
      by_cases hlt : j.entries < n
      · rw [if_pos hlt, if_neg (by omega)]
        exact .ok trivial hentered
      · rw [if_neg hlt, if_pos (by omega)]
        exact .error fun hnone => absurd (hlimit.symm.trans hnone) nofun

theorem inScope (hxy : Accounted o Q x y) :
    Accounted o Q (Run.inScope x) (Journaled.inScope y) := by
  intro m j h
  have hends := hxy _ _ (h.become j.env.push)
  rw [← h.env] at hends
  unfold Run.inScope Journaled.inScope
  rw [← h.env]
  generalize x _ = r, y _ = r' at hends ⊢
  cases hends with
  | ok ha htells =>
      refine .ok ha ?_
      rw [htells.env]
      exact htells.become _
  | error hcount => exact .error fun hlimit => (hcount hlimit).trans Journal.entries_become.symm

theorem loop {o : RenderOptions} {test : Run Bool} {test' : Journaled Bool} {body : Run Unit}
    {body' : Journaled Unit} (htest : Accounted o (fun _ => True) test test')
    (hbody : Accounted o (fun _ => True) body body') (rounds : Nat) :
    Accounted o (fun _ => True) (Run.loop test (Run.tick o line >>= fun _ => body) rounds)
      (Journaled.loop o.limit line test' body' rounds) := by
  induction rounds with
  | zero => exact fun _ _ h => .error fun _ => h.iterations
  | succ rounds ih =>
      refine htest.bind fun b _ => ?_
      cases b with
      | false => exact pure trivial
      | true =>
          simp only [if_true, bind_assoc]
          exact (enter o).bind fun _ _ => hbody.bind fun _ _ => ih

end Accounted

/-- Every step of a run is accounted for. -/
theorem Run.interpreter_accounted (o : RenderOptions) (rounds : Nat) :
    (Run.interpreter o rounds).Related (Accounted o) (fun _ => True) (fun _ => True)
      (Journaled.interpreter o.limit rounds) where
  pure := .pure
  bind := .bind
  write c := .emit rfl rfl rfl
  demand line e _ _ := by
    simp only [Run.interpreter, Run.eval_eq_conclude]
    exact .conclude o line _
  test line e _ _ := by
    simp only [Run.interpreter, Run.test, Run.eval_eq_conclude]
    exact (Accounted.conclude o line _).bind fun _ _ => .pure trivial
  print line v _ _ := by
    simp only [Run.interpreter, Journaled.interpreter]
    split
    · exact .fail _
    · exact .emit rfl rfl rfl
  null := trivial
  declare line name v _ _ := .update line (·.declare name v) (.stored name v) ⟨rfl, rfl, rfl⟩
  read line name _ _ := by
    refine .get fun m j h => ?_
    rw [h.env]
    cases j.env.lookup name with
    | none => exact .error fun _ => h.iterations
    | some v => exact .ok trivial h
  combine line op l r _ _ _ := by
    simp only [Run.interpreter, Run.combine_eq_conclude]
    exact .conclude o line _
  assign line name v _ _ _ := .update line (·.assign name v) (.stored name v) ⟨rfl, rfl, rfl⟩
  items line v _ _ := by
    simp only [Run.interpreter, Journaled.interpreter]
    cases v.elements? with
    | none => exact .fail _
    | some items => exact .record ⟨rfl, rfl, rfl⟩ fun _ _ => trivial
  enter line _ := .enter o
  take line name item _ _ := .update line (·.declare name item) (.bound name item) ⟨rfl, rfl, rfl⟩
  inScope := .inScope
  loop line _ _ _ _ _ htest hbody := .loop htest hbody rounds

namespace Program

variable (o : RenderOptions) (rounds : Nat) (p : Program) (model : Value)

theorem run_accounted :
    SameAccount o (fun _ => True) (p.run o rounds model) (p.journaled o.limit rounds model) := by
  have htells : (Journal.initial model).Tells o.strict (initial model) :=
    ⟨rfl, rfl, by cases o.strict <;> rfl, rfl⟩
  have hsame : Accounted o (fun _ => True) (interpretAll (Run.interpreter o rounds) p.instructions)
      (interpretAll (Journaled.interpreter o.limit rounds) p.instructions) :=
    interpretAll_related (Run.interpreter_accounted o rounds) fun _ _ => trivial
  rw [← execAll_eq_interpretAll] at hsame
  exact hsame _ _ htells

/-- A render gives what its journal accounts for: its text, its warnings if it is strict, or its error. -/
theorem outcome_eq_recount : p.outcome o rounds model = p.recount o rounds model := by
  have hends := p.run_accounted o rounds model
  unfold outcome recount
  generalize p.run o rounds model = r, p.journaled o.limit rounds model = r' at hends ⊢
  cases hends with
  | error _ => rfl
  | ok _ h => simp only [rendered, retold, ← h.output, ← h.warnings, Array.foldl_toList]

theorem iterations_eq_entries (strict : Bool) :
    p.iterations ⟨strict, none⟩ rounds model = (p.journal none rounds model).entries := by
  have hends := p.run_accounted ⟨strict, none⟩ rounds model
  unfold iterations journal
  generalize p.run ⟨strict, none⟩ rounds model = r, p.journaled none rounds model = r' at hends ⊢
  cases hends with
  | ok _ h => exact h.iterations
  | error hcount => exact hcount rfl

end Program

/-! ## Strict renders -/

/-- Whether a render is strict makes no difference to whether it ends, to its text or to its error. A render
that is not strict has no warnings; a strict one has, in the order of the run, one for each `/` or `%` of two
numbers of which the second is zero, on the line of the instruction. -/
theorem Program.render_strict (p : Program) (model : Value) (limit : Option Nat) :
    (∀ rounds,
      p.outcome ⟨true, limit⟩ rounds model =
          (p.outcome ⟨false, limit⟩ rounds model).map
            (fun r => ⟨r.text, (p.journal limit rounds model).zeroDivisions⟩) ∧
        p.outcome ⟨false, limit⟩ rounds model =
          (p.outcome ⟨false, limit⟩ rounds model).map (fun r => ⟨r.text, []⟩)) ∧
      p.render ⟨true, limit⟩ model =
        (p.render ⟨false, limit⟩ model).map
          (fun r => ⟨r.text, (p.journal limit (roundsFor ⟨true, limit⟩) model).zeroDivisions⟩) := by
  have hoptions : ∀ rounds, p.outcome ⟨true, limit⟩ rounds model =
      (p.outcome ⟨false, limit⟩ rounds model).map
        (fun r => ⟨r.text, (p.journal limit rounds model).zeroDivisions⟩) := by
    intro rounds
    rw [outcome_eq_recount, outcome_eq_recount]
    unfold recount journal
    cases p.journaled limit rounds model <;> rfl
  refine ⟨fun rounds => ⟨hoptions rounds, ?_⟩, hoptions _⟩
  rw [outcome_eq_recount]
  unfold recount
  cases p.journaled limit rounds model <;> rfl

end MailTemplate
