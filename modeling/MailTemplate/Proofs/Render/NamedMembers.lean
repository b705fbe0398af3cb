import MailTemplate.Proofs.Render.Interpreter
import MailTemplate.Proofs.Render.Simulation
import MailTemplate.Value.Model

/-!
# What a render reads of its model

A render reads of its model the members that the program names, and nothing else (`Program.outcome_eq_of_members`):
two models that have these members in common cannot be told apart.
-/

namespace MailTemplate

/-! ## Local scopes over a model -/

namespace Environment

variable {model : Value} {locals : List Scope} {name : String} {v : Value}

/-- A local variable comes before a member of the model. -/
theorem lookup_atop (hname : name ≠ modelName) :
    (atop model locals).lookup name = (locals.findSome? (·.lookup name)).or (model.member? name) := by
  have hbase : List.lookup name [(modelName, model)] = none := by
    rw [List.lookup_cons, beq_eq_false_iff_ne.2 hname]
    rfl
  rw [lookup, scopes_atop, List.findSome?_append, List.findSome?_singleton, hbase, Option.or_none]
  cases locals.findSome? (·.lookup name) <;> rfl

end Environment

/-! ## Two models -/

/-- The name is not that of the model itself, and what it is in both models is the same. -/
def Value.SameAt (model model' : Value) (name : String) : Prop :=
  name ≠ modelName ∧ model.member? name = model'.member? name

/-- The same local scopes over two models. -/
inductive SameLocals (model model' : Value) : Environment → Environment → Prop
  | mk {locals} : locals ≠ [] → SameLocals model model' (.atop model locals) (.atop model' locals)

namespace SameLocals

variable {model model' : Value} {env env' : Environment} {name : String} {v : Value}

theorem lookup_eq (h : SameLocals model model' env env') (hname : model.SameAt model' name) :
    env.lookup name = env'.lookup name := by
  obtain ⟨_⟩ := h
  rw [Environment.lookup_atop hname.1, Environment.lookup_atop hname.1, hname.2]

theorem push (h : SameLocals model model' env env') : SameLocals model model' env.push env'.push := by
  obtain ⟨_⟩ := h
  exact ⟨List.cons_ne_nil _ _⟩

theorem pop (h : SameLocals model model' env env') : SameLocals model model' env.pop env'.pop := by
  obtain @⟨locals, hlocals⟩ := h
  -- The outermost of the local scopes is not left.
  match locals with
  | [] => exact absurd rfl hlocals
  | [s] => exact ⟨hlocals⟩
  | s :: t :: ss =>
      rw [Environment.pop_atop (List.cons_ne_nil _ _), Environment.pop_atop (List.cons_ne_nil _ _)]
      exact ⟨List.cons_ne_nil _ _⟩

theorem declare (h : SameLocals model model' env env') (name : String) (v : Value) :
    Environment.SameChange (SameLocals model model') (env.declare name v) (env'.declare name v) := by
  obtain @⟨locals, hlocals⟩ := h
  obtain ⟨s, ss, rfl⟩ := List.exists_cons_of_ne_nil hlocals
  simp only [Environment.declare, Environment.scopes_atop, List.cons_append]
  split
  · exact .error _
  · split
    · exact .error _
    · exact .ok (SameLocals.mk (List.cons_ne_nil ((name, v) :: s) ss))

theorem assign (h : SameLocals model model' env env') (hname : model.SameAt model' name) (v : Value) :
    Environment.SameChange (SameLocals model model') (env.assign name v) (env'.assign name v) := by
  obtain @⟨locals, hlocals⟩ := h
  rw [Environment.assign_atop_eq, Environment.assign_atop_eq, hname.2]
  cases hassign : Environment.assignLocals name v locals with
  | none => exact .error _
  | some locals' => exact .ok ⟨(Environment.assignLocals_evolve hlocals hassign).ne_nil⟩

end SameLocals

/-! ## Runs -/

section Runs

open Run

variable {o : RenderOptions} {line : Nat} {model model' : Value} {name : String}

theorem SameLocals.simulates_read (hname : model.SameAt model' name) (rounds : Nat) :
    Simulates (SameLocals model model') (fun _ => True) ((Run.interpreter o rounds).read line name)
      ((Run.interpreter o rounds).read line name) := by
  intro m n hagree
  have hlookup : m.env.lookup name = n.env.lookup name := by
    obtain ⟨_, _, _, henv⟩ := hagree
    exact henv.lookup_eq hname
  rw [interpreter_read, interpreter_read, hlookup]
  cases n.env.lookup name with
  | none => exact .error _
  | some v => exact .ok trivial hagree

theorem SameLocals.eval_eq {e : Expr} (he : ∀ name ∈ e.roots, model.SameAt model' name) (mode : Resolution)
    (env env' : Environment) (h : SameLocals model model' env env') :
    e.eval o.strict env line mode = e.eval o.strict env' line mode :=
  e.eval_congr_roots (fun name hname => h.lookup_eq (he name hname)) o.strict line mode

/-- Steps that name nothing but what is the same in both models are the same for both. -/
theorem Run.interpreter_sameLocals (o : RenderOptions) (rounds : Nat) (model model' : Value) :
    (Run.interpreter o rounds).RelatedOn (Simulates (SameLocals model model')) (fun _ => True)
      (fun e => ∀ name ∈ e.roots, model.SameAt model' name) (model.SameAt model') (fun _ => True)
      (Run.interpreter o rounds) where
  pure := .pure
  bind := .bind
  write := .emit
  demand _ _ _ he := .eval (SameLocals.eval_eq he .required)
  test _ _ _ he := .test (SameLocals.eval_eq he .optional)
  print line v _ _ := by
    simp only [Run.interpreter]
    split
    · exact .fail line _
    · exact .emit _
  null := trivial
  declare _ name v _ _ := .update fun _ _ h => SameLocals.declare h name v
  read _ _ _ hname := SameLocals.simulates_read hname rounds
  combine line op l r _ _ _ := .combine o line op l r
  assign _ _ v _ hname _ := .update fun _ _ h => SameLocals.assign h hname v
  items line v _ _ := by
    simp only [Run.interpreter]
    split
    · exact .fail line _
    · exact .pure fun _ _ => trivial
  enter line _ := .tick o line
  take _ name item _ _ := .update fun _ _ h => SameLocals.declare h name item
  inScope := .inScope (fun _ _ => SameLocals.push) fun _ _ => SameLocals.pop
  loop line _ _ _ _ _ htest hbody := .loop htest ((Simulates.tick o line).bind fun _ _ => hbody) rounds

end Runs

/-! ## Programs -/

/-- The names that the paths of a program begin with, and those that it assigns to. -/
def Program.names (p : Program) : List String :=
  (exprsOf p.instructions).flatMap Expr.roots ++ assignedNames p.instructions

/-- A render depends on its model by the members that the program names alone: for two models in which these
are the same, it comes to the same text and warnings, or to the same error, or to no end, as long as the program
does not name the model itself. -/
theorem Program.outcome_eq_of_members {p : Program} {model model' : Value} (hmodel : modelName ∉ p.names)
    (hmembers : ∀ x ∈ p.names, model.member? x = model'.member? x) (o : RenderOptions) :
    (∀ rounds, p.outcome o rounds model = p.outcome o rounds model') ∧ p.render o model = p.render o model' := by
  have hsame : ∀ x ∈ p.names, model.SameAt model' x := by
    intro x hx
    refine ⟨?_, hmembers x hx⟩
    rintro rfl
    exact hmodel hx
  obtain ⟨hroots, hassigned⟩ := List.forall_mem_append.1 hsame
  have houtcome (rounds : Nat) : p.outcome o rounds model = p.outcome o rounds model' := by
    have hsimulates : Run.Simulates (SameLocals model model') (fun _ => True) (execAll o rounds p.instructions)
        (execAll o rounds p.instructions) := by
      rw [execAll_eq_interpretAll]
      refine interpretAll_relatedOn (Run.interpreter_sameLocals o rounds model model') (fun _ _ => trivial) ?_
        hassigned
      intro e he name hname
      exact hroots name (List.mem_flatMap_of_mem he hname)
    exact outcome_eq_of_sameEnd (hsimulates _ _ ⟨#[], #[], 0, ⟨List.cons_ne_nil [] []⟩⟩) rfl
  exact ⟨houtcome, houtcome (roundsFor o)⟩

/-- A model with a name, and with or without a password. -/
def account (password : List (String × Value)) : Value :=
  .object (.ofMembers [] (("name", .string "eve") :: password))

/-- A declaration, an assignment and an output, none of which names the password. -/
def greeting : Program :=
  ⟨[.change (.declare 1 "x" (some (.path ["name"]))), .change (.assign 1 "x" .add (.path ["name"])),
    .value 1 (.path ["x"])], .lf⟩

theorem greeting_outcome_eq :
    modelName ∉ greeting.names ∧
      (∀ x ∈ greeting.names,
        (account [("password", .string "1234")]).member? x = (account []).member? x) ∧
      greeting.outcome ⟨false, none⟩ 1 (account [("password", .string "1234")]) = .ok ⟨"eveeve", []⟩ ∧
      greeting.outcome ⟨false, none⟩ 1 (account [("password", .string "1234")]) =
        greeting.outcome ⟨false, none⟩ 1 (account []) := by
  have hmodel : modelName ∉ greeting.names := by decide
  have hmembers : ∀ x ∈ greeting.names,
      (account [("password", .string "1234")]).member? x = (account []).member? x := by
    intro x hx
    have hnames : greeting.names = ["name", "name", "x", "x"] := rfl
    simp only [hnames, List.mem_cons, List.not_mem_nil, or_false] at hx
    rcases hx with rfl | rfl | rfl | rfl <;> rfl
  exact ⟨hmodel, hmembers, by cbv, (Program.outcome_eq_of_members hmodel hmembers ⟨false, none⟩).1 1⟩

end MailTemplate
