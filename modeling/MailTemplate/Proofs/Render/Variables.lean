import MailTemplate.Proofs.Render.Invariants

/-!
# The laws of variables

Wherever a render stands, the name of the model is bound outside the local scopes alone, and no scope binds a name
twice (`Environment.Orderly`). So what is looked up, assigned to and declared is always one and the same binding,
and members of the model are hidden at most, and never changed (`Program.variables_lawful`).
-/

namespace MailTemplate

/-! ## Scopes -/

namespace Scope

variable {s as bs : Scope} {name x : String} {old v : Value}

theorem binds_eq_false_iff : s.binds x = false ↔ x ∉ s.names := by
  rw [← Bool.not_eq_true, binds_iff]

theorem lookup_eq_none (h : s.binds x = false) : s.lookup x = none := by
  simpa [binds] using h

theorem set_of_not_mem (h : name ∉ s.names) : s.set name v = s := by
  induction s with
  | nil => rfl
  | cons b s ih =>
      obtain ⟨y, w⟩ := b
      simp only [names_cons, List.mem_cons, not_or] at h
      simp only [set, List.map_cons, beq_iff_eq, Ne.symm h.1, ↓reduceIte] at ih ⊢
      rw [ih h.2]

/-- A scope that binds a name once, cut where it does. -/
theorem exists_cut (hnodup : s.names.Nodup) (h : s.binds name = true) :
    ∃ as old bs, s = as ++ (name, old) :: bs ∧ name ∉ names as ∧ name ∉ names bs := by
  rw [binds_iff, names, List.mem_map] at h
  obtain ⟨⟨_, old⟩, hmem, rfl⟩ := h
  obtain ⟨as, bs, rfl⟩ := List.append_of_mem hmem
  simp only [names, List.map_append, List.map_cons, List.nodup_append, List.nodup_cons] at hnodup
  refine ⟨as, old, bs, rfl, fun hname => ?_, hnodup.2.1.1⟩
  exact hnodup.2.2 _ hname _ List.mem_cons_self rfl

theorem set_cut (has : name ∉ names as) (hbs : name ∉ names bs) :
    set (as ++ (name, old) :: bs) name v = as ++ (name, v) :: bs := by
  have hback : set ((name, old) :: bs) name v = (name, v) :: bs := by
    rw [set, List.map_cons, ← set, set_of_not_mem hbs, beq_self_eq_true, if_pos rfl]
  rw [set, List.map_append, ← set, ← set, set_of_not_mem has, hback]

theorem lookup_cut (has : name ∉ names as) : List.lookup name (as ++ (name, v) :: bs) = some v := by
  rw [List.lookup_append, lookup_eq_none (binds_eq_false_iff.2 has)]
  simp

/-- The scope binds no name twice, and not that of the model. -/
def Orderly (s : Scope) : Prop := modelName ∉ s.names ∧ s.names.Nodup

/-- A scope stays orderly when new names are declared, other than that of the model. -/
theorem Evolves.orderly {s' : Scope} {declared assigned : List String} (h : s.Evolves declared assigned s')
    (hs : s.Orderly) (hnodup : declared.Nodup) (hdeclared : modelName ∉ declared) : s'.Orderly := by
  obtain ⟨hmodel, hdistinct⟩ := hs
  rw [Orderly, h.names, List.mem_append, List.mem_reverse, List.nodup_append]
  refine ⟨not_or.2 ⟨hdeclared, hmodel⟩, List.nodup_reverse.2 hnodup, hdistinct, ?_⟩
  rintro x hx _ hy rfl
  exact h.fresh x (List.mem_reverse.1 hx) hy

end Scope

namespace Environment

variable {model : Value} {env env' : Environment} {s : Scope} {locals locals' : List Scope} {name x : String}
  {v : Value}

/-! ## Orderly environments -/

/-- The innermost variable of a name has another value, and all else is the same. -/
inductive Rewrites (name : String) (v : Value) : List Scope → List Scope → Prop
  | mk {front back as bs old} : (∀ s ∈ front, s.binds name = false) → name ∉ Scope.names as →
      name ∉ Scope.names bs →
      Rewrites name v (front ++ (as ++ (name, old) :: bs) :: back) (front ++ (as ++ (name, v) :: bs) :: back)

theorem Rewrites.cons (hs : s.binds name = false) (h : Rewrites name v locals locals') :
    Rewrites name v (s :: locals) (s :: locals') := by
  obtain ⟨hfront, has, hbs⟩ := h
  exact .mk (List.forall_mem_cons.2 ⟨hs, hfront⟩) has hbs

theorem Rewrites.append (h : Rewrites name v locals locals') (base : List Scope) :
    Rewrites name v (locals ++ base) (locals' ++ base) := by
  obtain ⟨hfront, has, hbs⟩ := h
  simp only [List.append_assoc, List.cons_append]
  exact .mk hfront has hbs

/-- The environment has local scopes over the scope of the model, and these are orderly. -/
inductive Orderly (model : Value) : Environment → Prop
  | mk {locals : List Scope} : locals ≠ [] → (∀ s ∈ locals, s.Orderly) → Orderly model (atop model locals)

theorem orderly_new (model : Value) : (new model).Orderly model :=
  .mk (List.cons_ne_nil [] []) (List.forall_mem_singleton.2 ⟨List.not_mem_nil, List.nodup_nil⟩)

theorem orderly_of_evolve {declared assigned : List String} (hevolve : LocalsEvolve declared assigned locals locals')
    (hnodup : declared.Nodup) (hdeclared : modelName ∉ declared) (h : ∀ s ∈ locals, s.Orderly) :
    (atop model locals').Orderly model := by
  refine .mk hevolve.ne_nil ?_
  obtain ⟨hs, hss⟩ := hevolve
  obtain ⟨hinner, houter⟩ := List.forall_mem_cons.1 h
  refine List.forall_mem_cons.2 ⟨hs.orderly hinner hnodup hdeclared, ?_⟩
  clear hs h hinner
  induction hss with
  | nil => exact List.forall_mem_nil _
  | cons ht _ ih =>
      obtain ⟨hinner, houter⟩ := List.forall_mem_cons.1 houter
      exact List.forall_mem_cons.2 ⟨ht.orderly hinner List.nodup_nil List.not_mem_nil, ih houter⟩

namespace Orderly

theorem push (h : env.Orderly model) : env.push.Orderly model := by
  obtain ⟨_, hlocals⟩ := h
  exact .mk (List.cons_ne_nil _ _) (List.forall_mem_cons.2 ⟨⟨List.not_mem_nil, List.nodup_nil⟩, hlocals⟩)

theorem pop (h : env.Orderly model) : env.pop.Orderly model := by
  obtain ⟨hne, hlocals⟩ := h
  rename_i locals
  -- The outermost of the local scopes is not left.
  match locals with
  | [] => exact absurd rfl hne
  | [s] => exact .mk hne hlocals
  | s :: t :: ss =>
      rw [pop_atop (List.cons_ne_nil _ _)]
      exact .mk (List.cons_ne_nil _ _) (List.forall_mem_cons.1 hlocals).2

theorem declare (h : env.Orderly model) (hok : env.declare name v = .ok env') : env'.Orderly model := by
  have hname : modelName ∉ [name] := by
    rw [List.mem_singleton]
    rintro rfl
    cases hok
  obtain ⟨hne, hlocals⟩ := h
  obtain ⟨_, rfl, hevolve⟩ := declare_atop hne hok
  exact orderly_of_evolve hevolve (List.nodup_singleton name) hname hlocals

theorem assign (h : env.Orderly model) (hok : env.assign name v = .ok env') : env'.Orderly model := by
  obtain ⟨hne, hlocals⟩ := h
  obtain ⟨_, rfl, hevolve⟩ := assign_atop hne hok
  exact orderly_of_evolve hevolve List.nodup_nil List.not_mem_nil hlocals

end Orderly

theorem orderly_invariant (model : Value) : Invariant (Orderly model) (fun _ => True) (fun _ => True) where
  push h := h.push
  pop h := h.pop
  declare h _ hdeclare := h.declare hdeclare
  assign h _ hassign := h.assign hassign
  lookup _ _ := trivial
  null := trivial
  appraise _ _ _ := trivial
  apply _ := trivial
  elements _ _ _ _ := trivial

/-! ## Looking names up -/

theorem lookup_atop_nil (name : String) :
    (atop model []).lookup name = if name = modelName then some model else model.member? name := by
  split
  · rename_i hname
    simp [lookup, hname]
  · rename_i hname
    have hbeq : (name == modelName) = false := beq_eq_false_iff_ne.2 hname
    simp [lookup, List.lookup_cons, hbeq]

theorem lookup_atop_cons (name : String) :
    (atop model (s :: locals)).lookup name = (s.lookup name).or ((atop model locals).lookup name) := by
  simp only [lookup, scopes_atop, List.cons_append, List.findSome?_cons, model_atop]
  cases s.lookup name <;> rfl

theorem lookup_of_unbound (h : ∀ s ∈ locals, s.binds name = false) :
    (atop model locals).lookup name = (atop model []).lookup name := by
  induction locals with
  | nil => rfl
  | cons s ss ih =>
      obtain ⟨hs, hss⟩ := List.forall_mem_cons.1 h
      rw [lookup_atop_cons, Scope.lookup_eq_none hs, Option.none_or, ih hss]

/-! ## Assigning -/

theorem exists_assignLocals_iff :
    (∃ locals', assignLocals name v locals = some locals') ↔ ∃ s ∈ locals, s.binds name = true := by
  induction locals with
  | nil => simp [assignLocals]
  | cons s ss ih =>
      rw [assignLocals, List.exists_mem_cons_iff, ← ih]
      split
      · rename_i hs
        simp [hs]
      · rename_i hs
        simp [hs]

theorem assignLocals_of_unbound (h : ∀ s ∈ locals, s.binds name = false) : assignLocals name v locals = none := by
  refine Option.eq_none_iff_forall_ne_some.2 fun locals' hassign => ?_
  obtain ⟨s, hs, hbinds⟩ := exists_assignLocals_iff.1 ⟨locals', hassign⟩
  rw [h s hs] at hbinds
  cases hbinds

theorem assignLocals_rewrites (h : ∀ s ∈ locals, s.names.Nodup) (hassign : assignLocals name v locals = some locals') :
    Rewrites name v locals locals' := by
  induction locals generalizing locals' with
  | nil => cases hassign
  | cons s ss ih =>
      obtain ⟨hs, hss⟩ := List.forall_mem_cons.1 h
      rw [assignLocals] at hassign
      split at hassign
      · rename_i hbinds
        obtain ⟨as, old, bs, rfl, has, hbs⟩ := Scope.exists_cut hs hbinds
        cases hassign
        rw [Scope.set_cut has hbs]
        exact @Rewrites.mk name v [] ss as bs old (List.forall_mem_nil _) has hbs
      · rename_i hbinds
        obtain ⟨ss', hss', rfl⟩ := Option.map_eq_some_iff.1 hassign
        exact (ih hss hss').cons (Bool.not_eq_true _ ▸ hbinds)

theorem lookup_assignLocals_self (h : ∀ s ∈ locals, s.names.Nodup)
    (hassign : assignLocals name v locals = some locals') : (atop model locals').lookup name = some v := by
  induction locals generalizing locals' with
  | nil => cases hassign
  | cons s ss ih =>
      obtain ⟨hs, hss⟩ := List.forall_mem_cons.1 h
      rw [assignLocals] at hassign
      split at hassign
      · rename_i hbinds
        obtain ⟨as, old, bs, rfl, has, hbs⟩ := Scope.exists_cut hs hbinds
        cases hassign
        rw [Scope.set_cut has hbs, lookup_atop_cons, Scope.lookup_cut has, Option.some_or]
      · rename_i hbinds
        obtain ⟨ss', hss', rfl⟩ := Option.map_eq_some_iff.1 hassign
        rw [lookup_atop_cons, Scope.lookup_eq_none (Bool.not_eq_true _ ▸ hbinds), Option.none_or, ih hss hss']

theorem lookup_assignLocals_of_ne (hx : x ≠ name) (hassign : assignLocals name v locals = some locals') :
    (atop model locals').lookup x = (atop model locals).lookup x := by
  induction locals generalizing locals' with
  | nil => cases hassign
  | cons s ss ih =>
      rw [assignLocals] at hassign
      split at hassign
      · cases hassign
        rw [lookup_atop_cons, lookup_atop_cons, Scope.lookup_set_of_ne hx]
      · obtain ⟨ss', hss', rfl⟩ := Option.map_eq_some_iff.1 hassign
        rw [lookup_atop_cons, lookup_atop_cons, ih hss']

/-! ## Declaring -/

/-- Declares what can be declared, one name after another. -/
def declareEach (env : Environment) : List (String × Value) → Environment
  | [] => env
  | (name, v) :: bs =>
      match env.declare name v with
      | .ok env' => env'.declareEach bs
      | .error _ => env.declareEach bs

theorem declare_atop_cons (name : String) (v : Value) :
    (atop model (s :: locals)).declare name v =
      if name = modelName then .error .reserved
      else if s.binds name then .error (.alreadyDeclared name)
      else .ok (atop model (((name, v) :: s) :: locals)) :=
  rfl

/-- Declarations are made in the innermost scope. -/
theorem exists_declareEach (model : Value) (s : Scope) (locals : List Scope) (bs : List (String × Value)) :
    ∃ s', (atop model (s :: locals)).declareEach bs = atop model (s' :: locals) := by
  induction bs generalizing s with
  | nil => exact ⟨s, rfl⟩
  | cons b bs ih =>
      obtain ⟨name, v⟩ := b
      rw [declareEach, declare_atop_cons]
      split_ifs with hname hbinds
      · exact ih s
      · exact ih s
      · exact ih _

/-! ## The laws -/

theorem dropLast_scopes_atop : (atop model locals).scopes.dropLast = locals :=
  List.dropLast_concat

/-- What looking names up, assigning to them and declaring them comes to over a model. -/
structure Lawful (model : Value) (env : Environment) : Prop where
  lookup_model : env.lookup modelName = some model
  assign_ok_iff (name : String) (v : Value) :
    (∃ env', env.assign name v = .ok env') ↔ ∃ s ∈ env.scopes.dropLast, s.binds name = true
  /-- An assignment changes one binding, the one that is looked up. -/
  of_assign_ok {name : String} {v : Value} {env' : Environment} : env.assign name v = .ok env' →
    env'.lookup name = some v ∧ (∀ x ≠ name, env'.lookup x = env.lookup x) ∧
      env'.model = env.model ∧ Rewrites name v env.scopes env'.scopes
  declare_ok_iff (name : String) (v : Value) :
    (∃ env', env.declare name v = .ok env') ↔
      name ≠ modelName ∧ ∀ s ∈ env.scopes.head?, s.binds name = false
  of_declare_ok {name : String} {v : Value} {env' : Environment} : env.declare name v = .ok env' →
    env'.lookup name = some v ∧ ∀ x ≠ name, env'.lookup x = env.lookup x
  /-- Whatever is declared in a scope of its own is forgotten with it. -/
  pop_declareEach_push (bs : List (String × Value)) : (env.push.declareEach bs).pop = env
  /-- A name that no local scope binds is that of the model or of a member, if any, and cannot be assigned to. -/
  of_unbound {name : String} : (∀ s ∈ env.scopes.dropLast, s.binds name = false) →
    env.lookup name = (if name = modelName then some model else model.member? name) ∧
      ∀ v, env.assign name v =
        .error (if (env.lookup name).isSome then .modelMember name else .undeclared name)

theorem of_assign_ok_of_orderly (h : env.Orderly model) (hok : env.assign name v = .ok env') :
    env'.lookup name = some v ∧ (∀ x ≠ name, env'.lookup x = env.lookup x) ∧
      env'.model = env.model ∧ Rewrites name v env.scopes env'.scopes := by
  obtain ⟨_, hlocals⟩ := h
  rename_i locals _
  rw [assign_atop_eq] at hok
  cases hassign : assignLocals name v locals with
  | none =>
      rw [hassign] at hok
      cases hok
  | some locals' =>
      rw [hassign] at hok
      cases hok
      have hnodup : ∀ s ∈ locals, s.names.Nodup := fun s hs => (hlocals s hs).2
      exact ⟨lookup_assignLocals_self hnodup hassign, fun x hx => lookup_assignLocals_of_ne hx hassign, rfl,
        (assignLocals_rewrites hnodup hassign).append _⟩

theorem Orderly.lawful (h : env.Orderly model) : env.Lawful model where
  lookup_model := by
    obtain ⟨_, hlocals⟩ := h
    rw [lookup_of_unbound fun s hs => Scope.binds_eq_false_iff.2 (hlocals s hs).1, lookup_atop_nil, if_pos rfl]
  assign_ok_iff name v := by
    obtain ⟨_, _⟩ := h
    rename_i locals _ _
    rw [dropLast_scopes_atop, ← exists_assignLocals_iff (v := v), assign_atop_eq]
    cases assignLocals name v locals <;> simp
  of_assign_ok hok := of_assign_ok_of_orderly h hok
  declare_ok_iff name v := by
    obtain ⟨hne, _⟩ := h
    obtain ⟨s, ss, rfl⟩ := List.exists_cons_of_ne_nil hne
    rw [declare_atop_cons]
    split_ifs with hname hbinds
    · simp [hname]
    · simp [hbinds]
    · simp [hname, hbinds]
  of_declare_ok {name v env'} hok := by
    obtain ⟨hne, _⟩ := h
    obtain ⟨s, ss, rfl⟩ := List.exists_cons_of_ne_nil hne
    rw [declare_atop_cons] at hok
    split_ifs at hok
    cases hok
    refine ⟨by simp [lookup_atop_cons], fun x hx => ?_⟩
    have hbeq : (x == name) = false := beq_eq_false_iff_ne.2 hx
    simp only [lookup_atop_cons, List.lookup_cons, hbeq]
  pop_declareEach_push bs := by
    obtain ⟨hne, _⟩ := h
    rename_i locals _
    obtain ⟨s', hs'⟩ := exists_declareEach model [] locals bs
    rw [push_atop, hs', pop_atop hne]
  of_unbound {name} hunbound := by
    obtain ⟨_, _⟩ := h
    rename_i locals _ _
    rw [dropLast_scopes_atop] at hunbound
    have hlookup : (atop model locals).lookup name = if name = modelName then some model else model.member? name :=
      (lookup_of_unbound hunbound).trans (lookup_atop_nil name)
    refine ⟨hlookup, fun v => ?_⟩
    rw [hlookup, assign_atop_eq, assignLocals_of_unbound hunbound]
    by_cases hname : name = modelName <;> simp [hname]

end Environment

/-! ## Failing changes -/

namespace Run

variable {α β : Type} {x : Run α} {f : α → Run β} {o : RenderOptions} {line : Nat}

/-- However the run ends, the variables are as before. -/
def Reads (x : Run α) : Prop := ∀ env, Maintains (·.env = env) (fun _ => True) x

/-- If the run fails, the variables are as before. -/
def FailsClean (x : Run α) : Prop := ∀ m e m', x m = .error e m' → m'.env = m.env

theorem FailsClean.bind (hx : Reads x) (hf : ∀ a, FailsClean (f a)) : FailsClean (x >>= f) := by
  intro m e m' h
  rcases bind_eq_error_iff.1 h with hxerror | ⟨a, mid, hxok, hferror⟩
  · exact (hx m.env).of_error rfl hxerror
  · exact (hf a mid e m' hferror).trans ((hx m.env).of_ok rfl hxok).2

theorem FailsClean.fail (cause : FaultCause) : FailsClean (fail line cause : Run α) := by
  intro m e m' h
  cases h
  rfl

theorem FailsClean.update (g : Environment → Except FaultCause Environment) : FailsClean (update line g) := by
  intro m e m' h
  unfold Run.update at h
  split at h <;> cases h
  rfl

theorem Reads.conclude {r : Environment → Appraisal α} : Reads (conclude o line r) :=
  fun env => conclude_maintains (E := (· = env)) fun _ _ _ _ => trivial

end Run

/-- An assignment or a declaration that fails leaves all variables as they are. -/
theorem Change.exec_failsClean (o : RenderOptions) (c : Change) : Run.FailsClean (c.exec o) := by
  cases c with
  | declare line name value =>
      cases value with
      | none => exact .bind (fun _ => .pure trivial) fun v => .update _
      | some e =>
          exact .bind (fun env => Run.eval_eq_conclude o line _ e ▸ Run.Reads.conclude env) fun v => .update _
  | assign line name op value =>
      refine .bind (fun env => Run.eval_eq_conclude o line _ value ▸ Run.Reads.conclude env) fun v => ?_
      split
      · exact .update _
      · refine .bind (fun env m hm => .ok trivial hm) fun m => ?_
        split
        · exact .fail _
        · refine .bind (fun env => ?_) fun v => .update _
          exact Run.combine_eq_conclude o line _ _ v ▸ Run.Reads.conclude env

/-! ## Renders -/

/-- The laws hold of all variables that there are in a render: of those that its journal shows, of those that
instructions are run with, and of those that they leave, however they end. An assignment or a declaration that
fails leaves the variables as they are. -/
theorem Program.variables_lawful (p : Program) (o : RenderOptions) (rounds : Nat) (model : Value) :
    (p.outcome o rounds model = p.recount o rounds model ∧
        ∀ env, .variables env ∈ (p.journal o.limit rounds model).events → env.Lawful model) ∧
      (∀ depth is m, Executes o rounds p model depth is m →
        m.env.Lawful model ∧ ∀ m', Run.EndsIn (execAll o rounds is) m m' → m'.env.Lawful model) ∧
      ∀ (c : Change) m e m', c.exec o m = .error e m' → m'.env = m.env := by
  have hinvariant := Environment.orderly_invariant model
  refine ⟨⟨p.outcome_eq_recount o rounds model, fun env henv => ?_⟩, fun depth is m hexecutes => ?_, ?_⟩
  · have hjournal := hinvariant.journal (Environment.orderly_new model) (fun _ _ => trivial) (p := p) o.limit rounds
    exact (hjournal.events _ henv).lawful
  · have hm := (hinvariant.of_executes (Environment.orderly_new model) (fun _ _ => trivial) hexecutes).1
    have hall : Maintains (fun m => m.env.Orderly model) (fun _ => True) (execAll o rounds is) :=
      hinvariant.execAll fun _ _ => trivial
    refine ⟨hm.lawful, fun m' hends => ?_⟩
    rcases hends with ⟨_, hok⟩ | ⟨_, herror⟩
    · exact (hall.of_ok hm hok).2.lawful
    · exact (hall.of_error hm herror).lawful
  · exact fun c m e m' h => c.exec_failsClean o m e m' h

/-- A variable that hides a member of the model in a scope of its own. -/
def hidingScope : List Instruction :=
  [.scope 1 [.change (.declare 1 "x" (some (.string "a"))), .change (.assign 2 "x" .set (.string "b"))],
    .change (.assign 3 "x" .set (.string "c"))]

def hiddenMember : Value := .object (.ofMembers [] [("x", .string "m")])

theorem variables_lawful_hidden :
    ∃ m m', Executes ⟨false, none⟩ 1 ⟨hidingScope, .lf⟩ hiddenMember 1
        [.change (.assign 2 "x" .set (.string "b"))] m ∧
      m.env.lookup "x" = some (.string "a") ∧
      (∃ env', m.env.assign "x" (.string "b") = .ok env' ∧ env'.lookup "x" = some (.string "b")) ∧
      Executes ⟨false, none⟩ 1 ⟨hidingScope, .lf⟩ hiddenMember 0
        [.change (.assign 3 "x" .set (.string "c"))] m' ∧
      m'.env.lookup "x" = some (.string "m") ∧
      m'.env.assign "x" (.string "c") = .error (.modelMember "x") := by
  have hstart : Executes ⟨false, none⟩ 1 ⟨hidingScope, .lf⟩ hiddenMember 0 hidingScope
      (Program.initial hiddenMember) := .start
  have hinner : Executes ⟨false, none⟩ 1 ⟨hidingScope, .lf⟩ hiddenMember 1
      [.change (.assign 2 "x" .set (.string "b"))]
      ⟨⟨hiddenMember, [[("x", .string "a")], [], [(modelName, hiddenMember)]]⟩, #[], #[], 0⟩ :=
    .next (.enter hstart .scope) (by cbv)
  have houter : Executes ⟨false, none⟩ 1 ⟨hidingScope, .lf⟩ hiddenMember 0
      [.change (.assign 3 "x" .set (.string "c"))] (Program.initial hiddenMember) :=
    .next hstart (by cbv)
  have hlaws := (Program.variables_lawful ⟨hidingScope, .lf⟩ ⟨false, none⟩ 1 hiddenMember).2.1
  obtain ⟨hinnerLaws, _⟩ := hlaws _ _ _ hinner
  obtain ⟨houterLaws, _⟩ := hlaws _ _ _ houter
  obtain ⟨env', hok⟩ := (hinnerLaws.assign_ok_iff "x" (.string "b")).2 ⟨_, List.mem_cons_self, by decide⟩
  have hunbound : ∀ s ∈ (Program.initial hiddenMember).env.scopes.dropLast, s.binds "x" = false := by decide
  exact ⟨_, _, hinner, rfl, ⟨env', hok, (hinnerLaws.of_assign_ok hok).1⟩, houter, rfl,
    (houterLaws.of_unbound hunbound).2 (.string "c")⟩

end MailTemplate
