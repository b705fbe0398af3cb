import MailTemplate.Proofs.Compile.Escaping
import MailTemplate.Proofs.Render.Interpreter

/-!
# Newlines of a render

What the newline instructions of a program write may be any text: a program that spells it out renders alike, with
that text wherever a newline instruction wrote, and nowhere else (`Program.outcome_spell`).
-/

namespace MailTemplate

open Text

/-! ## Spelling newlines out -/

/-- A newline as the text `t`. -/
def Chunk.spell (t : String) : Chunk → Chunk
  | .newline => .text t
  | c => c

mutual

/-- The instruction with the text `t` in place of the newlines that it writes. -/
def Instruction.spell (t : String) : Instruction → Instruction
  | .literal line text => .literal line text
  | .value line e => .value line e
  | .newline line => .literal line t
  | .change c => .change c
  | .choose line arms => .choose line (arms.spell t)
  | .forLoop line init test step body => .forLoop line init test step (spellAll t body)
  | .forEach line name e body => .forEach line name e (spellAll t body)
  | .whileLoop line test body => .whileLoop line test (spellAll t body)
  | .scope line body => .scope line (spellAll t body)

def Arms.spell (t : String) : Arms → Arms
  | .done => .done
  | .otherwise body => .otherwise (spellAll t body)
  | .test e body next => .test e (spellAll t body) (next.spell t)

def spellAll (t : String) : List Instruction → List Instruction
  | [] => []
  | i :: is => i.spell t :: spellAll t is

end

def Program.spell (t : String) (p : Program) : Program := ⟨spellAll t p.instructions, p.ending⟩

/-! ## Runs -/

section Interpret

variable {M : Type → Type} [Monad M] (s : Interpreter M) (t : String)

/-- The steps of an interpreter that spells newlines out. -/
def Interpreter.spelling : Interpreter M := { s with write := fun c => s.write (c.spell t) }

theorem Change.interpret_spelling (c : Change) : c.interpret (s.spelling t) = c.interpret s := by
  cases c <;> rfl

theorem Change.forM_spelling (c : Option Change) :
    (c.forM (·.interpret (s.spelling t)) : M PUnit) = c.forM (·.interpret s) := by
  cases c with
  | none => rfl
  | some c => exact c.interpret_spelling s t

theorem Interpreter.headTest_spelling (line : Nat) (test : Option Expr) :
    (s.spelling t).headTest line test = s.headTest line test := by
  cases test <;> rfl

mutual

theorem Instruction.interpret_spell (i : Instruction) : (i.spell t).interpret s = i.interpret (s.spelling t) := by
  match i with
  | .literal _ _ | .newline _ | .value _ _ =>
      rw [Instruction.spell, Instruction.interpret, Instruction.interpret]
      rfl
  | .change c => rw [Instruction.spell, Instruction.interpret, Instruction.interpret, c.interpret_spelling]
  | .choose line arms =>
      rw [Instruction.spell, Instruction.interpret, Instruction.interpret, arms.interpret_spell line]
  | .forLoop line init test step body =>
      rw [Instruction.spell, Instruction.interpret, Instruction.interpret, interpretAll_spell body,
        Change.forM_spelling, Change.forM_spelling, Interpreter.headTest_spelling]
      rfl
  | .forEach line name e body =>
      rw [Instruction.spell, Instruction.interpret, Instruction.interpret, interpretAll_spell body]
      rfl
  | .whileLoop line test body =>
      rw [Instruction.spell, Instruction.interpret, Instruction.interpret, interpretAll_spell body]
      rfl
  | .scope _ body =>
      rw [Instruction.spell, Instruction.interpret, Instruction.interpret, interpretAll_spell body]
      rfl

theorem Arms.interpret_spell (line : Nat) (arms : Arms) :
    (arms.spell t).interpret s line = arms.interpret (s.spelling t) line := by
  match arms with
  | .done => rw [Arms.spell, Arms.interpret, Arms.interpret]
  | .otherwise body =>
      rw [Arms.spell, Arms.interpret, Arms.interpret, interpretAll_spell body]
      rfl
  | .test e body next =>
      rw [Arms.spell, Arms.interpret, Arms.interpret, interpretAll_spell body, next.interpret_spell line]
      rfl

theorem interpretAll_spell (is : List Instruction) :
    interpretAll s (spellAll t is) = interpretAll (s.spelling t) is := by
  match is with
  | [] => rw [spellAll, interpretAll, interpretAll]
  | i :: is => rw [spellAll, interpretAll, interpretAll, i.interpret_spell, interpretAll_spell is]

end

end Interpret

def Machine.spell (t : String) (m : Machine) : Machine := { m with output := m.output.map (Chunk.spell t) }

/-- The second result is the first one with newlines spelled out, and in `Q` unless it is an error. -/
inductive Run.SpelledEnd {α : Type} (t : String) (Q : α → Prop) :
    EStateM.Result Halt Machine α → EStateM.Result Halt Machine α → Prop
  | ok {a m} : Q a → SpelledEnd t Q (.ok a m) (.ok a (m.spell t))
  | error {e m} : SpelledEnd t Q (.error e m) (.error e (m.spell t))

/-- The second run does what the first one does, with newlines spelled out. -/
def Run.Spells {α : Type} (t : String) (Q : α → Prop) (x y : Run α) : Prop :=
  ∀ m, Run.SpelledEnd t Q (x m) (y (m.spell t))

namespace Run.Spells

variable {α β : Type} {t : String} {Q : α → Prop} {Q' : β → Prop} {x y : Run α} {f g : α → Run β}
  {o : RenderOptions} {line : Nat}

theorem pure {a : α} (ha : Q a) : Spells t Q (pure a) (pure a) := fun _ => .ok ha

theorem throw (e : Halt) : Spells t Q (throw e) (throw e) := fun _ => .error

theorem fail (cause : FaultCause) : Spells t Q (Run.fail line cause) (Run.fail line cause) := throw _

theorem bind (hxy : Spells t Q x y) (hfg : ∀ a, Q a → Spells t Q' (f a) (g a)) :
    Spells t Q' (x >>= f) (y >>= g) := by
  intro m
  have hends := hxy m
  change SpelledEnd t Q' (EStateM.bind x f m) (EStateM.bind y g (m.spell t))
  unfold EStateM.bind
  generalize x m = r, y (m.spell t) = r' at hends ⊢
  cases hends with
  | ok ha => exact hfg _ ha _
  | error => exact .error

theorem emit (c : Chunk) : Spells t (fun _ => True) (Run.emit c) (Run.emit (c.spell t)) := by
  intro m
  have hspell : Machine.spell t { m with output := m.output.push c } =
      ⟨m.env, (m.output.map (Chunk.spell t)).push (c.spell t), m.warnings, m.iterations⟩ := by
    simp only [Machine.spell, Array.map_push]
  have hok : SpelledEnd t (fun _ => True) (.ok () { m with output := m.output.push c })
      (.ok () (Machine.spell t { m with output := m.output.push c })) := .ok trivial
  rw [hspell] at hok
  exact hok

theorem eval (mode : Resolution) (e : Expr) :
    Spells t (fun _ => True) (Run.eval o line mode e) (Run.eval o line mode e) := by
  intro m
  have henv : (m.spell t).env = m.env := rfl
  unfold Run.eval
  rw [henv]
  split
  · exact .ok trivial
  · exact .error

theorem combine (op : BinaryOp) (l r : Value) :
    Spells t (fun _ => True) (Run.combine o line op l r) (Run.combine o line op l r) := by
  intro m
  unfold Run.combine
  split
  · exact .ok trivial
  · exact .error

theorem update (change : Environment → Except FaultCause Environment) :
    Spells t (fun _ => True) (Run.update line change) (Run.update line change) := by
  intro m
  have henv : (m.spell t).env = m.env := rfl
  unfold Run.update
  rw [henv]
  split
  · exact .ok trivial
  · exact .error

theorem read (name : String) (rounds : Nat) :
    Spells t (fun _ => True) ((Run.interpreter o rounds).read line name)
      ((Run.interpreter o rounds).read line name) := by
  intro m
  have henv : (m.spell t).env = m.env := rfl
  rw [Run.interpreter_read, Run.interpreter_read, henv]
  cases m.env.lookup name with
  | none => exact .error
  | some v => exact .ok trivial

theorem tick : Spells t (fun _ => True) (Run.tick o line) (Run.tick o line) := by
  intro m
  have hcount : (m.spell t).iterations = m.iterations := rfl
  simp only [Run.tick, hcount]
  split
  · split
    · exact .error
    · exact .ok trivial
  · exact .ok trivial

theorem inScope (hxy : Spells t Q x y) : Spells t Q (Run.inScope x) (Run.inScope y) := by
  intro m
  have hends := hxy { m with env := m.env.push }
  have hpush : { m.spell t with env := (m.spell t).env.push } = Machine.spell t { m with env := m.env.push } := rfl
  unfold Run.inScope
  rw [hpush]
  generalize x _ = r, y _ = r' at hends ⊢
  cases hends with
  | ok ha => exact .ok ha
  | error => exact .error

theorem loop {test test' : Run Bool} {body body' : Run Unit} (htest : Spells t (fun _ => True) test test')
    (hbody : Spells t (fun _ => True) body body') (rounds : Nat) :
    Spells t (fun _ => True) (Run.loop test body rounds) (Run.loop test' body' rounds) := by
  induction rounds with
  | zero => exact throw _
  | succ rounds ih =>
      refine htest.bind fun b _ => ?_
      cases b with
      | false => exact pure trivial
      | true => exact hbody.bind fun _ _ => ih

end Run.Spells

/-- Each step with newlines spelled out does what it does without that. -/
theorem Run.interpreter_spelling (t : String) (o : RenderOptions) (rounds : Nat) :
    (interpreter o rounds).Related (fun Q x y => Spells t Q x y) (fun _ => True) (fun _ => True)
      ((interpreter o rounds).spelling t) where
  pure := .pure
  bind := .bind
  write := .emit
  demand _ _ _ _ := .eval _ _
  test _ _ _ _ := (Spells.eval _ _).bind fun _ _ => .pure trivial
  print line v _ _ := by
    simp only [interpreter, Interpreter.spelling]
    split
    · exact .fail _
    · exact .emit (.text v.display)
  null := trivial
  declare _ name v _ _ := .update (·.declare name v)
  read _ name _ _ := .read name rounds
  combine _ _ _ _ _ _ _ := .combine _ _ _
  assign _ name v _ _ _ := .update (·.assign name v)
  items line v _ _ := by
    simp only [interpreter, Interpreter.spelling]
    split
    · exact .fail _
    · exact .pure fun _ _ => trivial
  enter _ _ := .tick
  take _ name item _ _ := .update (·.declare name item)
  inScope := .inScope
  loop _ _ _ _ _ _ htest hbody := .loop htest (Spells.tick.bind fun _ _ => hbody) rounds

/-! ## Renders -/

namespace Program

/-- The run of a program with newlines spelled out. -/
theorem run_spell (t : String) (o : RenderOptions) (rounds : Nat) (p : Program) (model : Value) :
    Run.SpelledEnd t (fun _ => True) (p.run o rounds model) ((p.spell t).run o rounds model) := by
  have hspells : Run.Spells t (fun _ => True) (interpretAll (Run.interpreter o rounds) p.instructions)
      (interpretAll ((Run.interpreter o rounds).spelling t) p.instructions) :=
    interpretAll_related (Run.interpreter_spelling t o rounds) fun _ _ => trivial
  rw [← interpretAll_spell, ← execAll_eq_interpretAll, ← execAll_eq_interpretAll] at hspells
  have hinitial : (initial model).spell t = initial model := by simp [Machine.spell, initial]
  have hends := hspells (initial model)
  rwa [hinitial] at hends

/-- Two outcomes are one error, or have the same warnings, and texts of the same chunks with the line endings `e`
and `e'`. The outcome of spelling newlines out as any text `t` is that error, or has that text in place of the
newlines among the chunks, and in no other place. -/
inductive Respelled (e e' : LineEnding) (spelled : String → Except Halt Rendered) :
    Except Halt Rendered → Except Halt Rendered → Prop
  | error {halt} : (∀ t, spelled t = .error halt) → Respelled e e' spelled (.error halt) (.error halt)
  | ok {ws} (cs : List Chunk) :
      (∀ t, spelled t = .ok ⟨String.ofList (Chunk.textOf e (cs.map (Chunk.spell t))), ws⟩) →
      Respelled e e' spelled (.ok ⟨String.ofList (Chunk.textOf e cs), ws⟩)
        (.ok ⟨String.ofList (Chunk.textOf e' cs), ws⟩)

theorem rendered_eq (p : Program) (m : Machine) :
    p.rendered m = ⟨String.ofList (Chunk.textOf p.ending m.output.toList), m.warnings.toList⟩ := by
  simp [rendered, ← Array.foldl_toList, Chunk.foldl_render]

theorem outcome_respelled (o : RenderOptions) (rounds : Nat) (p : Program) (e' : LineEnding) (model : Value) :
    Respelled p.ending e' (fun t => (p.spell t).outcome o rounds model) (p.outcome o rounds model)
      ({ p with ending := e' }.outcome o rounds model) := by
  have hspell := fun t => p.run_spell t o rounds model
  have hrun : ({ p with ending := e' } : Program).run o rounds model = p.run o rounds model := rfl
  simp only [outcome, hrun]
  generalize p.run o rounds model = r at hspell
  cases r with
  | error e m =>
      refine .error fun t => ?_
      have hends := hspell t
      generalize (p.spell t).run o rounds model = r' at hends
      cases hends
      rfl
  | ok a m =>
      simp only [rendered_eq]
      refine .ok m.output.toList fun t => ?_
      have hends := hspell t
      generalize (p.spell t).run o rounds model = r' at hends
      cases hends
      simp only [Machine.spell, Array.toList_map]
      rfl

end Program

end MailTemplate
