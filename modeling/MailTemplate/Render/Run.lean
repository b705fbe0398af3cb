import MailTemplate.Render.Eval
import MailTemplate.Instruction.Basic

/-!
# Rendering

Instructions run in order; they change variables and append to the output, which ends its lines as
the source of the template does. Every loop body that is entered counts as an iteration, and a limit
on the iterations of a whole render may be set. A loop also has a bound of its own on its rounds, so
that every run ends; a run that meets this bound is unfinished, which is neither a result nor an
error.
-/

namespace MailTemplate

open Text

structure RenderOptions where
  /-- Warn of suspicious operations. -/
  strict : Bool
  /-- How many iterations all loops of a render may have together. -/
  limit : Option Nat
  deriving Repr, DecidableEq, Inhabited

inductive Chunk where
  | text (s : String)
  | newline
  deriving Repr, DecidableEq

def Chunk.render (ending : LineEnding) : Chunk → String
  | text s => s
  | newline => ending.text

structure Machine where
  env : Environment
  output : Array Chunk
  warnings : Array Warning
  iterations : Nat

/-- Why a run stops before its end. -/
inductive Halt where
  | error (e : RuntimeError)
  | unfinished

/-- Steps of a render; an error leaves the state as it was when it arose. -/
abbrev Run := EStateM Halt Machine

namespace Run

def fail {α : Type} (line : Nat) (cause : FaultCause) : Run α := throw (.error ⟨line, cause⟩)

def emit (c : Chunk) : Run Unit := modify fun m => { m with output := m.output.push c }

def eval (o : RenderOptions) (line : Nat) (mode : Resolution) (e : Expr) : Run Value := fun m =>
  match e.eval o.strict m.env line mode with
  | .ok (v, ws) => .ok v { m with warnings := m.warnings ++ ws }
  | .error err => .error (.error err) m

/-- Combines two values by an operator. -/
def combine (o : RenderOptions) (line : Nat) (op : BinaryOp) (l r : Value) : Run Value := fun m =>
  match op.eval o.strict line l r with
  | .ok (v, ws) => .ok v { m with warnings := m.warnings ++ ws }
  | .error err => .error (.error err) m

/-- Whether a condition holds; members that it names may be missing. -/
def test (o : RenderOptions) (line : Nat) (e : Expr) : Run Bool :=
  return (← eval o line .optional e).isTruthy

/-- Changes the variables, unless that is an error. -/
def update (line : Nat) (f : Environment → Except FaultCause Environment) : Run Unit := fun m =>
  match f m.env with
  | .ok env => .ok () { m with env }
  | .error cause => .error (.error ⟨line, cause⟩) m

def tick (o : RenderOptions) (line : Nat) : Run Unit := fun m =>
  let n := m.iterations + 1
  match o.limit with
  | some limit =>
      if limit < n then .error (.error ⟨line, .iterationLimit limit⟩) { m with iterations := n }
      else .ok () { m with iterations := n }
  | none => .ok () { m with iterations := n }

/-- Runs in a scope of its own, which is left at the end however the run ends. -/
def inScope {α : Type} (run : Run α) : Run α := fun m =>
  match run { m with env := m.env.push } with
  | .ok a m => .ok a { m with env := m.env.pop }
  | .error e m => .error e { m with env := m.env.pop }

/-- Runs `body` as long as `test` holds, but tests at most `rounds` times. -/
def loop (test : Run Bool) (body : Run Unit) : Nat → Run Unit
  | 0 => throw .unfinished
  | rounds + 1 => do
      if ← test then
        body
        loop test body rounds

end Run

open Run

variable (o : RenderOptions)

/-- Makes a declaration or an assignment. A compound assignment evaluates its operand before it
reads the variable. -/
def Change.exec : Change → Run Unit
  | declare line name value => do
      let v ← match value with
        | some e => eval o line .required e
        | none => pure .null
      update line (·.declare name v)
  | assign line name op value => do
      let v ← eval o line .required value
      match op.binary? with
      | none => update line (·.assign name v)
      | some op =>
          match (← get).env.lookup name with
          | none => fail line (.undeclared name)
          | some old =>
              let v ← combine o line op old v
              update line (·.assign name v)

variable (rounds : Nat)

mutual

/-- Runs an instruction; each loop in it tests at most `rounds` times. -/
def Instruction.exec : Instruction → Run Unit
  | .literal _ text => emit (.text text)
  | .newline _ => emit .newline
  | .value line e => do
      let v ← eval o line .required e
      if v.isComposite then fail line (.noText v.kind) else emit (.text v.display)
  | .change c => c.exec o
  | .choose line arms => arms.exec line
  | .forLoop line init test step body => inScope do
      init.forM (·.exec o)
      loop (match test with | some e => Run.test o line e | none => pure true)
        (do
          tick o line
          inScope (execAll body)
          step.forM (·.exec o))
        rounds
  | .forEach line name e body => do
      let v ← eval o line .required e
      match v.elements? with
      | none => fail line (.noSequence v.kind)
      | some items =>
          items.forM fun item => do
            tick o line
            inScope do
              update line (·.declare name item)
              execAll body
  | .whileLoop line test body =>
      loop (Run.test o line test)
        (do
          tick o line
          inScope (execAll body))
        rounds
  | .scope _ body => inScope (execAll body)

/-- Runs the body of the first arm whose test holds. -/
def Arms.exec (line : Nat) : Arms → Run Unit
  | .done => pure ()
  | .otherwise body => inScope (execAll body)
  | .test e body next => do
      if ← Run.test o line e then inScope (execAll body)
      else next.exec line

def execAll : List Instruction → Run Unit
  | [] => pure ()
  | i :: is => do
      i.exec
      execAll is

end

structure Rendered where
  text : String
  warnings : List Warning

namespace Program

def initial (model : Value) : Machine := ⟨.new model, #[], #[], 0⟩

/-- Runs a program; each loop tests at most `rounds` times. -/
def run (p : Program) (model : Value) : EStateM.Result Halt Machine Unit :=
  execAll o rounds p.instructions (initial model)

/-- The text and warnings of a finished run. -/
def rendered (p : Program) (m : Machine) : Rendered :=
  ⟨m.output.foldl (fun s c => s ++ c.render p.ending) "", m.warnings.toList⟩

/-- How often a loop may test. With a limit on iterations this is more than any loop gets to. -/
def roundsFor (o : RenderOptions) : Nat := o.limit.getD UInt64.size + 1

def render (p : Program) (model : Value) : Except Halt Rendered :=
  match p.run o (roundsFor o) model with
  | .ok _ m => .ok (p.rendered m)
  | .error e _ => .error e

end Program

end MailTemplate
