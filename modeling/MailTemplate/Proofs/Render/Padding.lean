import MailTemplate.Proofs.Render.Environment
import MailTemplate.Proofs.Render.Simulation

/-!
# Extra empty scopes

Empty scopes among the local ones make no difference to a run, as long as nothing is declared in them.
`Simulates w x y` says that the run `y` does with extra scopes, in the places that `w` tells, what `x` does
without them.
-/

namespace MailTemplate

/-- Local scopes, and the same with extra empty ones; `w` tells for each of the latter, from the innermost
one on, whether it is extra. -/
inductive Padded : List Bool → List Scope → List Scope → Prop
  | nil : Padded [] [] []
  | scope {w ss ts} (s : Scope) : Padded w ss ts → Padded (false :: w) (s :: ss) (s :: ts)
  | extra {w ss ts} : Padded w ss ts → Padded (true :: w) ss ([] :: ts)

/-- Environments of one model that are the same but for the extra scopes. -/
inductive PaddedEnv (w : List Bool) : Environment → Environment → Prop
  | mk {model ss ts} : Padded w ss ts → PaddedEnv w (.atop model ss) (.atop model ts)

namespace Padded

variable {w : List Bool} {ss ts : List Scope} {base : Scope} {name : String} {v : Value} {model : Value}

theorem lookup_eq (h : Padded w ss ts) :
    (ts ++ [base]).findSome? (·.lookup name) = (ss ++ [base]).findSome? (·.lookup name) := by
  induction h with
  | nil => rfl
  | scope s _ ih => rw [List.cons_append, List.cons_append, List.findSome?_cons, List.findSome?_cons, ih]
  | extra _ ih => rwa [List.cons_append, List.findSome?_cons]

/-- An assignment reaches the same scope. -/
theorem assignLocals (h : Padded w ss ts) (name : String) (v : Value) :
    Option.Rel (Padded w) (Environment.assignLocals name v ss) (Environment.assignLocals name v ts) := by
  induction h with
  | nil => exact .none
  | @scope w ss ts s hpadded ih =>
      rw [Environment.assignLocals, Environment.assignLocals]
      split
      · exact .some (hpadded.scope _)
      · generalize Environment.assignLocals name v ss = left, Environment.assignLocals name v ts = right at ih ⊢
        cases ih with
        | none => exact .none
        | some hpadded' => exact .some (hpadded'.scope s)
  | @extra w ss ts _ ih =>
      have hbinds : Scope.binds [] name = false := rfl
      rw [Environment.assignLocals.eq_2 name v [], hbinds, if_neg Bool.false_ne_true]
      generalize Environment.assignLocals name v ss = left, Environment.assignLocals name v ts = right at ih ⊢
      cases ih with
      | none => exact .none
      | some hpadded' => exact .some hpadded'.extra

theorem assign (h : Padded w ss ts) :
    Environment.SameChange (PaddedEnv w) ((Environment.atop model ss).assign name v)
      ((Environment.atop model ts).assign name v) := by
  rw [Environment.assign_atop_eq, Environment.assign_atop_eq]
  have hrel := h.assignLocals name v
  generalize Environment.assignLocals name v ss = left, Environment.assignLocals name v ts = right at hrel ⊢
  cases hrel with
  | none => exact .error _
  | some hpadded => exact .ok ⟨hpadded⟩

theorem declare (h : Padded (false :: w) ss ts) :
    Environment.SameChange (PaddedEnv (false :: w)) ((Environment.atop model ss).declare name v)
      ((Environment.atop model ts).declare name v) := by
  obtain _ | ⟨s, h⟩ | _ := h
  simp only [Environment.declare, Environment.atop, List.cons_append]
  split
  · exact .error _
  · split
    · exact .error _
    · exact .ok ⟨h.scope ((name, v) :: s)⟩

theorem ne_nil (h : Padded w ss ts) (hw : false ∈ w) : ss ≠ [] ∧ ts ≠ [] := by
  induction h with
  | nil => cases hw
  | scope => exact ⟨List.cons_ne_nil _ _, List.cons_ne_nil _ _⟩
  | extra _ ih =>
      obtain ⟨hss, _⟩ := ih (by simpa using hw)
      exact ⟨hss, List.cons_ne_nil _ _⟩

theorem env_lookup_eq (h : Padded w ss ts) :
    (Environment.atop model ts).lookup name = (Environment.atop model ss).lookup name := by
  simp only [Environment.lookup, Environment.atop, h.lookup_eq]

end Padded

namespace PaddedEnv

variable {w : List Bool} {env env' : Environment}

theorem push (h : PaddedEnv w env env') : PaddedEnv (false :: w) env.push env'.push := by
  obtain ⟨hpadded⟩ := h
  exact ⟨hpadded.scope []⟩

theorem push_right (h : PaddedEnv w env env') : PaddedEnv (true :: w) env env'.push := by
  obtain ⟨hpadded⟩ := h
  exact ⟨hpadded.extra⟩

theorem pop (hw : false ∈ w) (h : PaddedEnv (false :: w) env env') : PaddedEnv w env.pop env'.pop := by
  obtain ⟨hpadded⟩ := h
  obtain _ | ⟨s, hpadded⟩ | _ := hpadded
  obtain ⟨hss, hts⟩ := hpadded.ne_nil hw
  rw [Environment.pop_atop hss, Environment.pop_atop hts]
  exact ⟨hpadded⟩

theorem pop_right (hw : false ∈ w) (h : PaddedEnv (true :: w) env env') : PaddedEnv w env env'.pop := by
  obtain ⟨hpadded⟩ := h
  obtain _ | _ | hpadded := hpadded
  obtain ⟨_, hts⟩ := hpadded.ne_nil hw
  rw [Environment.pop_atop hts]
  exact ⟨hpadded⟩

end PaddedEnv

/-! ## Runs -/

/-- The states differ by extra scopes alone. -/
abbrev Agree (w : List Bool) (m n : Machine) : Prop := m.Agree (PaddedEnv w) n

theorem Agree.lookup_eq {w : List Bool} {m n : Machine} (h : Agree w m n) (name : String) :
    n.env.lookup name = m.env.lookup name := by
  obtain ⟨output, warnings, iterations, ⟨hpadded⟩⟩ := h
  exact hpadded.env_lookup_eq

/-- Both runs end well, with the same result and in states that agree, or with the same error. -/
abbrev SameEnd {α : Type} (w : List Bool) (r r' : EStateM.Result Halt Machine α) : Prop :=
  Run.SameEnd (PaddedEnv w) (fun _ => True) r r'

abbrev Simulates {α : Type} (w : List Bool) (x y : Run α) : Prop :=
  Run.Simulates (PaddedEnv w) (fun _ => True) x y

namespace Simulates

variable {α β : Type} {w : List Bool} {x y : Run α} {f g : α → Run β}

theorem pure (a : α) : Simulates w (pure a : Run α) (pure a) := Run.Simulates.pure trivial

theorem fail (line : Nat) (cause : FaultCause) :
    Simulates w (Run.fail line cause : Run α) (Run.fail line cause) :=
  Run.Simulates.fail line cause

theorem bind (hxy : Simulates w x y) (hfg : ∀ a, Simulates w (f a) (g a)) :
    Simulates w (x >>= f) (y >>= g) :=
  Run.Simulates.bind hxy fun a _ => hfg a

theorem emit (c : Chunk) : Simulates w (Run.emit c) (Run.emit c) := Run.Simulates.emit c

theorem eval_eq {env env' : Environment} (h : PaddedEnv w env env') (strict : Bool) (line : Nat)
    (mode : Resolution) (e : Expr) : e.eval strict env line mode = e.eval strict env' line mode := by
  obtain ⟨hpadded⟩ := h
  exact e.eval_congr_roots (fun _ _ => hpadded.env_lookup_eq.symm) strict line mode

theorem eval (o : RenderOptions) (line : Nat) (mode : Resolution) (e : Expr) :
    Simulates w (Run.eval o line mode e) (Run.eval o line mode e) :=
  Run.Simulates.eval fun _ _ h => eval_eq h o.strict line mode e

theorem combine (o : RenderOptions) (line : Nat) (op : BinaryOp) (l r : Value) :
    Simulates w (Run.combine o line op l r) (Run.combine o line op l r) :=
  Run.Simulates.combine o line op l r

theorem tick (o : RenderOptions) (line : Nat) : Simulates w (Run.tick o line) (Run.tick o line) :=
  Run.Simulates.tick o line

theorem test (o : RenderOptions) (line : Nat) (e : Expr) :
    Simulates w (Run.test o line e) (Run.test o line e) :=
  (eval o line .optional e).bind fun _ => pure _

/-- What goes on with the state as it is. -/
theorem get {f : Machine → Run β} (hf : ∀ m n, Agree w m n → SameEnd w (f m m) (f n n)) :
    Simulates w (get >>= f) (get >>= f) :=
  fun m n h => hf m n h

theorem declare (line : Nat) (name : String) (v : Value) :
    Simulates (false :: w) (Run.update line (·.declare name v)) (Run.update line (·.declare name v)) := by
  refine Run.Simulates.update ?_
  rintro _ _ ⟨hpadded⟩
  exact hpadded.declare

theorem assign (line : Nat) (name : String) (v : Value) :
    Simulates w (Run.update line (·.assign name v)) (Run.update line (·.assign name v)) := by
  refine Run.Simulates.update ?_
  rintro _ _ ⟨hpadded⟩
  exact hpadded.assign

theorem inScope (hw : false ∈ w) (hxy : Simulates (false :: w) x y) :
    Simulates w (Run.inScope x) (Run.inScope y) :=
  Run.Simulates.inScope (fun _ _ => PaddedEnv.push) (fun _ _ => PaddedEnv.pop hw) hxy

/-- A scope on one side in which nothing is declared. -/
theorem inScope_right (hw : false ∈ w) (hxy : Simulates (true :: w) x y) :
    Simulates w x (Run.inScope y) := by
  rintro m _ ⟨output, warnings, iterations, henv⟩
  have hends := hxy _ _ ⟨output, warnings, iterations, henv.push_right⟩
  simp only [Run.inScope]
  generalize x _ = r, y _ = r' at hends ⊢
  cases hends with
  | ok ha hagree =>
      obtain ⟨_, _, _, henv'⟩ := hagree
      exact .ok ha ⟨_, _, _, henv'.pop_right hw⟩
  | error e => exact .error e

theorem loop {test test' : Run Bool} {body body' : Run Unit} (htest : Simulates w test test')
    (hbody : Simulates w body body') (rounds : Nat) :
    Simulates w (Run.loop test body rounds) (Run.loop test' body' rounds) :=
  Run.Simulates.loop htest hbody rounds

theorem forM {γ : Type} {g g' : γ → Run PUnit} (hg : ∀ c, Simulates w (g c) (g' c)) (cs : List γ) :
    Simulates w (cs.forM g) (cs.forM g') :=
  Run.Simulates.forM hg cs

end Simulates

end MailTemplate
