import MailTemplate.Proofs.Render.Run

/-!
# Two runs at a time

Two runs that begin with related variables, and with the same output, warnings and iterations, may be related in
all that follows: `Run.Simulates S Q x y` says that they end in such states with the same result, which is in `Q`,
or with the same error. This holds of a whole run if it holds of its parts.
-/

namespace MailTemplate

/-! ## Expressions -/

/-- The names that the paths of an expression begin with. -/
def Expr.roots : Expr → List String
  | number _ | string _ | bool _ | null => []
  | path segments => segments.head?.toList
  | member base _ => base.roots
  | index base position => base.roots ++ position.roots
  | unary _ e => e.roots
  | binary _ l r => l.roots ++ r.roots
  | cond test yes no => test.roots ++ (yes.roots ++ no.roots)

/-- The value of an expression depends on the environment by the values of the variables that it names alone. -/
theorem Expr.eval_congr_roots {env env' : Environment} {e : Expr}
    (h : ∀ name ∈ e.roots, env.lookup name = env'.lookup name) (strict : Bool) (line : Nat) (mode : Resolution) :
    e.eval strict env line mode = e.eval strict env' line mode := by
  induction e generalizing mode with
  | number | string | bool | null => rfl
  | path segments =>
      cases segments with
      | nil => rfl
      | cons root rest => simp only [eval, h root List.mem_cons_self]
  | member base name ih => simp only [eval, ih h]
  | index base position ih ihPosition =>
      obtain ⟨hbase, hposition⟩ := List.forall_mem_append.1 h
      simp only [eval, ih hbase, ihPosition hposition]
  | unary op e ih => cases op <;> simp only [eval, ih h]
  | binary op l r ihLeft ihRight =>
      obtain ⟨hl, hr⟩ := List.forall_mem_append.1 h
      cases op <;> simp only [eval, ihLeft hl, ihRight hr]
  | cond test yes no ihTest ihYes ihNo =>
      obtain ⟨htest, hrest⟩ := List.forall_mem_append.1 h
      obtain ⟨hyes, hno⟩ := List.forall_mem_append.1 hrest
      simp only [eval, ihTest htest, ihYes hyes, ihNo hno]

/-! ## States and ends of runs -/

variable {S S' : Environment → Environment → Prop}

/-- The states are the same but for their variables, which are related by `S`. -/
inductive Machine.Agree (S : Environment → Environment → Prop) : Machine → Machine → Prop
  | mk {env env'} (output : Array Chunk) (warnings : Array Warning) (iterations : Nat) : S env env' →
      Agree S ⟨env, output, warnings, iterations⟩ ⟨env', output, warnings, iterations⟩

/-- Both environments change into related ones, or neither can be changed. -/
inductive Environment.SameChange (S : Environment → Environment → Prop) :
    Except FaultCause Environment → Except FaultCause Environment → Prop
  | ok {env env'} : S env env' → SameChange S (.ok env) (.ok env')
  | error (cause : FaultCause) : SameChange S (.error cause) (.error cause)

namespace Run

/-- Both runs end well, with the same result and in states that agree, or with the same error. -/
inductive SameEnd {α : Type} (S : Environment → Environment → Prop) (Q : α → Prop) :
    EStateM.Result Halt Machine α → EStateM.Result Halt Machine α → Prop
  | ok {m n a} : Q a → m.Agree S n → SameEnd S Q (.ok a m) (.ok a n)
  | error {m n} (e : Halt) : SameEnd S Q (.error e m) (.error e n)

def Simulates {α : Type} (S : Environment → Environment → Prop) (Q : α → Prop) (x y : Run α) : Prop :=
  ∀ m n, m.Agree S n → SameEnd S Q (x m) (y n)

namespace Simulates

variable {α β : Type} {Q : α → Prop} {Q' : β → Prop} {x y : Run α} {f g : α → Run β} {o : RenderOptions}
  {line : Nat}

theorem pure {a : α} (ha : Q a) : Simulates S Q (pure a) (pure a) := fun _ _ h => .ok ha h

theorem throw (e : Halt) : Simulates S Q (throw e) (throw e) := fun _ _ _ => .error e

theorem fail (line : Nat) (cause : FaultCause) : Simulates S Q (Run.fail line cause) (Run.fail line cause) :=
  throw _

theorem bind (hxy : Simulates S Q x y) (hfg : ∀ a, Q a → Simulates S Q' (f a) (g a)) :
    Simulates S Q' (x >>= f) (y >>= g) := by
  intro m n hmn
  change SameEnd S Q' (EStateM.bind x f m) (EStateM.bind y g n)
  have hends := hxy m n hmn
  unfold EStateM.bind
  generalize x m = r, y n = r' at hends ⊢
  cases hends with
  | ok ha hagree => exact hfg _ ha _ _ hagree
  | error e => exact .error e

theorem emit (c : Chunk) : Simulates S (fun _ => True) (Run.emit c) (Run.emit c) := by
  rintro _ _ ⟨output, warnings, iterations, henv⟩
  exact .ok trivial ⟨_, _, _, henv⟩

theorem eval {mode : Resolution} {e : Expr}
    (he : ∀ env env', S env env' → e.eval o.strict env line mode = e.eval o.strict env' line mode) :
    Simulates S (fun _ => True) (Run.eval o line mode e) (Run.eval o line mode e) := by
  rintro _ _ ⟨output, warnings, iterations, henv⟩
  simp only [Run.eval, he _ _ henv]
  split
  · exact .ok trivial ⟨_, _, _, henv⟩
  · exact .error _

theorem test {e : Expr}
    (he : ∀ env env', S env env' → e.eval o.strict env line .optional = e.eval o.strict env' line .optional) :
    Simulates S (fun _ => True) (Run.test o line e) (Run.test o line e) :=
  (eval he).bind fun _ _ => pure trivial

theorem combine (o : RenderOptions) (line : Nat) (op : BinaryOp) (l r : Value) :
    Simulates S (fun _ => True) (Run.combine o line op l r) (Run.combine o line op l r) := by
  rintro _ _ ⟨output, warnings, iterations, henv⟩
  unfold Run.combine
  split
  · exact .ok trivial ⟨_, _, _, henv⟩
  · exact .error _

theorem tick (o : RenderOptions) (line : Nat) :
    Simulates S (fun _ => True) (Run.tick o line) (Run.tick o line) := by
  rintro _ _ ⟨output, warnings, iterations, henv⟩
  simp only [Run.tick]
  split
  · split
    · exact .error _
    · exact .ok trivial ⟨_, _, _, henv⟩
  · exact .ok trivial ⟨_, _, _, henv⟩

theorem update {change : Environment → Except FaultCause Environment}
    (hchange : ∀ env env', S env env' → Environment.SameChange S (change env) (change env')) :
    Simulates S (fun _ => True) (Run.update line change) (Run.update line change) := by
  rintro _ _ @⟨env, env', output, warnings, iterations, henv⟩
  have hsame := hchange env env' henv
  simp only [Run.update]
  generalize change env = left, change env' = right at hsame
  cases hsame with
  | ok henv' => exact .ok trivial ⟨_, _, _, henv'⟩
  | error cause => exact .error _

theorem inScope (hpush : ∀ env env', S env env' → S' env.push env'.push)
    (hpop : ∀ env env', S' env env' → S env.pop env'.pop) (hxy : Simulates S' Q x y) :
    Simulates S Q (Run.inScope x) (Run.inScope y) := by
  rintro _ _ ⟨output, warnings, iterations, henv⟩
  have hends := hxy _ _ ⟨output, warnings, iterations, hpush _ _ henv⟩
  simp only [Run.inScope]
  generalize x _ = r, y _ = r' at hends ⊢
  cases hends with
  | ok ha hagree =>
      obtain ⟨_, _, _, henv'⟩ := hagree
      exact .ok ha ⟨_, _, _, hpop _ _ henv'⟩
  | error e => exact .error e

theorem loop {test test' : Run Bool} {body body' : Run Unit} (htest : Simulates S (fun _ => True) test test')
    (hbody : Simulates S (fun _ => True) body body') (rounds : Nat) :
    Simulates S (fun _ => True) (Run.loop test body rounds) (Run.loop test' body' rounds) := by
  induction rounds with
  | zero => exact throw _
  | succ rounds ih =>
      refine htest.bind fun b _ => ?_
      cases b with
      | false => exact pure trivial
      | true => exact hbody.bind fun _ _ => ih

theorem forM {γ : Type} {g g' : γ → Run PUnit} (hg : ∀ c, Simulates S (fun _ => True) (g c) (g' c)) (cs : List γ) :
    Simulates S (fun _ => True) (cs.forM g) (cs.forM g') := by
  induction cs with
  | nil => exact pure trivial
  | cons c cs ih => exact (hg c).bind fun _ _ => ih

end Simulates

end Run

/-- Programs with instructions that run alike, and the same line endings, come to the same. -/
theorem Program.outcome_eq_of_sameEnd {o : RenderOptions} {rounds : Nat} {p q : Program} {model model' : Value}
    (h : Run.SameEnd S (fun _ => True) (p.run o rounds model) (q.run o rounds model'))
    (hending : q.ending = p.ending) : p.outcome o rounds model = q.outcome o rounds model' := by
  unfold outcome
  generalize p.run o rounds model = r, q.run o rounds model' = r' at h ⊢
  cases h with
  | ok _ hagree =>
      obtain ⟨_, _, _, _⟩ := hagree
      simp only [rendered, hending]
  | error => rfl

end MailTemplate
