import MailTemplate.Render.Run

/-!
# How runs end

A run of two parts ends well if and only if both do, and with an error where one of them does. What every part
maintains of the state is maintained by the whole (`Maintains`).
-/

namespace MailTemplate

namespace Run

section Bind

variable {σ α β : Type} {x : EStateM Halt σ α} {f : α → EStateM Halt σ β} {m m' : σ} {a : α} {b : β}
  {e : Halt}

theorem bind_eq_ok_iff :
    (x >>= f) m = .ok b m' ↔ ∃ a mid, x m = .ok a mid ∧ f a mid = .ok b m' := by
  change EStateM.bind x f m = .ok b m' ↔ _
  constructor
  · intro h
    cases hx : x m with
    | ok a mid => exact ⟨a, mid, rfl, by simpa [EStateM.bind, hx] using h⟩
    | error e mid => simp [EStateM.bind, hx] at h
  · rintro ⟨a, mid, hx, hf⟩
    simp [EStateM.bind, hx, hf]

theorem bind_eq_error_iff :
    (x >>= f) m = .error e m' ↔
      x m = .error e m' ∨ ∃ a mid, x m = .ok a mid ∧ f a mid = .error e m' := by
  change EStateM.bind x f m = .error e m' ↔ _
  constructor
  · intro h
    cases hx : x m with
    | ok a mid => exact .inr ⟨a, mid, rfl, by simpa [EStateM.bind, hx] using h⟩
    | error e mid => exact .inl (by simpa [EStateM.bind, hx] using h)
  · rintro (hx | ⟨a, mid, hx, hf⟩)
    · simp [EStateM.bind, hx]
    · simp [EStateM.bind, hx, hf]

end Bind

variable {α : Type} {x : Run α} {m m' : Machine} {a : α} {e : Halt}

theorem inScope_eq_ok_iff :
    inScope x m = .ok a m' ↔
      ∃ mid, x { m with env := m.env.push } = .ok a mid ∧ m' = { mid with env := mid.env.pop } := by
  unfold inScope
  constructor
  · intro h
    split at h
    · rename_i mid hx
      cases h
      exact ⟨mid, hx, rfl⟩
    · cases h
  · rintro ⟨mid, hx, rfl⟩
    simp only [hx]

theorem inScope_eq_error_iff :
    inScope x m = .error e m' ↔
      ∃ mid, x { m with env := m.env.push } = .error e mid ∧ m' = { mid with env := mid.env.pop } := by
  unfold inScope
  constructor
  · intro h
    split at h
    · cases h
    · rename_i mid hx
      cases h
      exact ⟨mid, hx, rfl⟩
  · rintro ⟨mid, hx, rfl⟩
    simp only [hx]

/-- The test of a `for`, which holds when there is none. -/
def headTest (o : RenderOptions) (line : Nat) : Option Expr → Run Bool
  | some e => Run.test o line e
  | none => pure true

/-- The run from the first state ends in the second, well or with an error. -/
def EndsIn (x : Run α) (m m' : Machine) : Prop := (∃ a, x m = .ok a m') ∨ ∃ e, x m = .error e m'

variable (o : RenderOptions) (rounds line : Nat)

/-- A round of a `for`. -/
def forRound (step : Option Change) (body : List Instruction) : Run Unit := do
  tick o line
  inScope (execAll o rounds body)
  step.forM (·.exec o)

/-- A round of a `foreach`. -/
def forEachRound (name : String) (body : List Instruction) (item : Value) : Run Unit := do
  tick o line
  inScope do
    update line (·.declare name item)
    execAll o rounds body

/-- A round of a `while`. -/
def whileRound (body : List Instruction) : Run Unit := do
  tick o line
  inScope (execAll o rounds body)

end Run

namespace Instruction

open Run

variable {o : RenderOptions} {rounds line : Nat} {body : List Instruction}

theorem exec_forLoop {init step : Option Change} {test : Option Expr} :
    (forLoop line init test step body).exec o rounds =
      inScope (init.forM (·.exec o) >>= fun _ =>
        loop (headTest o line test) (forRound o rounds line step body) rounds) := by
  cases test <;> rw [exec] <;> rfl

theorem exec_forEach {name : String} {e : Expr} :
    (forEach line name e body).exec o rounds =
      eval o line .required e >>= fun v =>
        match v.elements? with
        | none => fail line (.noSequence v.kind)
        | some items => items.forM (forEachRound o rounds line name body) := by
  rw [exec]
  rfl

theorem exec_whileLoop {test : Expr} :
    (whileLoop line test body).exec o rounds =
      loop (Run.test o line test) (whileRound o rounds line body) rounds := by
  rw [exec]
  rfl

end Instruction

/-! ## Invariants -/

section Maintains

variable {σ α β : Type} {I : σ → Prop} {Q : α → Prop} {Q' : β → Prop} {x : EStateM Halt σ α}
  {f : α → EStateM Halt σ β}

/-- A state in `I`, with a result in `Q` unless the run ends with an error. -/
inductive EndsWithin (I : σ → Prop) (Q : α → Prop) : EStateM.Result Halt σ α → Prop
  | ok {a s} : Q a → I s → EndsWithin I Q (.ok a s)
  | error {e s} : I s → EndsWithin I Q (.error e s)

/-- From every state in `I` the run ends in one, with a result in `Q` if any. -/
def Maintains (I : σ → Prop) (Q : α → Prop) (x : EStateM Halt σ α) : Prop :=
  ∀ s, I s → EndsWithin I Q (x s)

namespace Maintains

theorem pure {a : α} (ha : Q a) : Maintains I Q (pure a) := fun _ hs => .ok ha hs

theorem throw (e : Halt) : Maintains I Q (throw e) := fun _ hs => .error hs

theorem bind (hx : Maintains I Q x) (hf : ∀ a, Q a → Maintains I Q' (f a)) :
    Maintains I Q' (x >>= f) := by
  intro s hs
  have hends := hx s hs
  change EndsWithin I Q' (EStateM.bind x f s)
  unfold EStateM.bind
  generalize x s = r at hends ⊢
  cases hends with
  | ok ha hs => exact hf _ ha _ hs
  | error hs => exact .error hs

theorem of_ok (hx : Maintains I Q x) {s s' : σ} (hs : I s) {a : α} (hok : x s = .ok a s') : Q a ∧ I s' := by
  have hends := hx s hs
  rw [hok] at hends
  cases hends with
  | ok ha hs => exact ⟨ha, hs⟩

theorem of_error (hx : Maintains I Q x) {s s' : σ} (hs : I s) {e : Halt} (herror : x s = .error e s') : I s' := by
  have hends := hx s hs
  rw [herror] at hends
  cases hends with
  | error hs => exact hs

end Maintains

end Maintains

/-! ## Programs -/

namespace Program

/-- What a render comes to if each loop tests at most `rounds` times. -/
def outcome (o : RenderOptions) (rounds : Nat) (p : Program) (model : Value) : Except Halt Rendered :=
  match p.run o rounds model with
  | .ok _ m => .ok (p.rendered m)
  | .error e _ => .error e

/-- How many iterations a render has counted when it stops. -/
def iterations (o : RenderOptions) (rounds : Nat) (p : Program) (model : Value) : Nat :=
  match p.run o rounds model with
  | .ok _ m | .error _ m => m.iterations

theorem render_eq_outcome (o : RenderOptions) (p : Program) (model : Value) :
    p.render o model = p.outcome o (roundsFor o) model := by
  rfl

end Program

end MailTemplate
