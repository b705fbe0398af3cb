import MailTemplate.Proofs.Value.Presence
import MailTemplate.Render.Eval

/-!
# Paths in parts

A path leads where its second part leads from where its first part does, and says the same where a name is missing
(`Value.resolve_append`). Following a path fails only where a name is required and missing, and then tells the names
up to the first one that is (`Value.resolve_eq_error_iff`). Else it comes to what the names lead to, or to `absent`
(`Value.resolve_eq_ok_iff`). Paths of an expression go on from a variable in the same way (`Expr.eval_path_append`).
-/

namespace MailTemplate

namespace Value

/-! ## A path in two parts -/

section Append

variable {base : Value} {before s : List String} {mode : Resolution}

theorem resolve_append (base : Value) (before s t : List String) (mode : Resolution) :
    base.resolve before (s ++ t) mode =
      base.resolve before s mode >>= fun v => v.resolve (before ++ s) t mode := by
  induction s generalizing base before with
  | nil =>
      rw [List.append_nil]
      rfl
  | cons name s ih =>
      by_cases hbase : base = .absent
      · subst hbase
        exact resolve_absent.symm
      · rw [List.cons_append, resolve_member hbase, resolve_member hbase]
        cases base.member? name with
        | some v =>
            have hnames : before ++ name :: s = before ++ [name] ++ s := by simp
            rw [hnames]
            exact ih v (before ++ [name])
        | none =>
            cases mode with
            | optional => exact resolve_absent.symm
            | required => rfl

/-- A path that has come to `absent` stays there. -/
theorem resolve_append_of_absent (h : base.resolve before s mode = .ok .absent) (t : List String) :
    base.resolve before (s ++ t) mode = .ok .absent := by
  rw [resolve_append, h]
  exact resolve_absent

end Append

/-! ## Names that are missing -/

/-- The names lead from a value to another one: each is a member of the value before it. Nothing leads on from
`absent`. -/
inductive Leads : Value → List String → Value → Prop
  | here (v : Value) : Leads v [] v
  | member {v w u name names} : v ≠ .absent → v.member? name = some w → Leads w names u → Leads v (name :: names) u

/-- The names lead to `absent`, maybe before the last of them. -/
def LeadsToAbsent (base : Value) (segments : List String) : Prop :=
  ∃ front back, segments = front ++ back ∧ base.Leads front .absent

/-- Of the names in `segments`, `name` is the first that is missing, and `found` are those before it. -/
def MissesAt (base : Value) (segments found : List String) (name : String) : Prop :=
  ∃ v rest, segments = found ++ name :: rest ∧ base.Leads found v ∧ v ≠ .absent ∧ v.member? name = none

section Names

variable {base v : Value} {before segments found : List String} {name next : String} {mode : Resolution}

theorem leads_nil : base.Leads [] v ↔ v = base := by
  constructor
  · rintro ⟨⟩
    rfl
  · rintro rfl
    exact .here _

theorem leads_cons (hbase : base ≠ .absent) :
    base.Leads (next :: segments) v ↔ ∃ w, base.member? next = some w ∧ w.Leads segments v := by
  constructor
  · rintro (_ | ⟨_, hw, hmore⟩)
    exact ⟨_, hw, hmore⟩
  · rintro ⟨w, hw, hmore⟩
    exact .member hbase hw hmore

theorem not_absent_leads : ¬ absent.Leads (next :: segments) v := by
  rintro (_ | ⟨habsent, _, _⟩)
  exact habsent rfl

theorem absent_leadsToAbsent : absent.LeadsToAbsent segments := ⟨[], segments, rfl, .here _⟩

theorem leadsToAbsent_nil : base.LeadsToAbsent [] ↔ base = .absent := by
  constructor
  · rintro ⟨front, back, hnames, hleads⟩
    obtain ⟨rfl, rfl⟩ := List.append_eq_nil_iff.1 hnames.symm
    exact (leads_nil.1 hleads).symm
  · rintro rfl
    exact absent_leadsToAbsent

theorem leadsToAbsent_cons (hbase : base ≠ .absent) :
    base.LeadsToAbsent (next :: segments) ↔ ∃ w, base.member? next = some w ∧ w.LeadsToAbsent segments := by
  constructor
  · rintro ⟨front, back, hnames, hleads⟩
    cases hleads with
    | here => exact absurd rfl hbase
    | member _ hw hmore =>
        obtain ⟨rfl, hrest⟩ := List.cons.inj hnames
        exact ⟨_, hw, _, back, hrest, hmore⟩
  · rintro ⟨w, hw, front, back, rfl, hmore⟩
    exact ⟨next :: front, back, rfl, .member hbase hw hmore⟩

theorem not_missesAt_nil : ¬ base.MissesAt [] found name := by
  rintro ⟨_, _, hnames, _⟩
  simp at hnames

theorem not_missesAt_absent : ¬ absent.MissesAt segments found name := by
  rintro ⟨_, _, _, hleads, hne, _⟩
  cases hleads with
  | here => exact hne rfl
  | member habsent => exact habsent rfl

/-- A name that is there is not the one that is missing. -/
theorem missesAt_of_member {v : Value} (hbase : base ≠ .absent) (hv : base.member? next = some v) :
    base.MissesAt (next :: segments) found name ↔ ∃ more, found = next :: more ∧ v.MissesAt segments more name := by
  constructor
  · rintro ⟨u, rest, hnames, hleads, hu, hmissing⟩
    cases hleads with
    | here =>
        obtain ⟨rfl, _⟩ := List.cons.inj hnames
        rw [hv] at hmissing
        cases hmissing
    | member _ hw hmore =>
        obtain ⟨rfl, hrest⟩ := List.cons.inj hnames
        rw [hv] at hw
        cases hw
        exact ⟨_, rfl, u, rest, hrest, hmore, hu, hmissing⟩
  · rintro ⟨more, rfl, u, rest, rfl, hmore, hu, hmissing⟩
    exact ⟨u, rest, rfl, .member hbase hv hmore, hu, hmissing⟩

theorem missesAt_of_missing (hbase : base ≠ .absent) (hnext : base.member? next = none) :
    base.MissesAt (next :: segments) found name ↔ found = [] ∧ name = next := by
  constructor
  · rintro ⟨_, _, hnames, hleads, _⟩
    cases hleads with
    | here =>
        obtain ⟨rfl, _⟩ := List.cons.inj hnames
        exact ⟨rfl, rfl⟩
    | member _ hw _ =>
        obtain ⟨rfl, _⟩ := List.cons.inj hnames
        rw [hnext] at hw
        cases hw
  · rintro ⟨rfl, rfl⟩
    exact ⟨base, segments, rfl, .here base, hbase, hnext⟩

/-- A path fails where all names are required and one is missing. The error tells the names up to the first that is,
and none behind it. -/
theorem resolve_eq_error_iff {cause : FaultCause} : base.resolve before segments mode = .error cause ↔
    mode = .required ∧ ∃ found name, base.MissesAt segments found name ∧
      cause = .missing (.names (before ++ found ++ [name])) := by
  induction segments generalizing base before with
  | nil => simp [resolve, not_missesAt_nil]
  | cons next segments ih =>
      by_cases hbase : base = .absent
      · subst hbase
        simp [resolve_absent, not_missesAt_absent]
      · rw [resolve_member hbase]
        cases hnext : base.member? next with
        | some v =>
            simp only [ih, missesAt_of_member hbase hnext]
            refine and_congr_right fun _ => ?_
            constructor
            · rintro ⟨found, name, hmisses, rfl⟩
              exact ⟨next :: found, name, ⟨found, rfl, hmisses⟩, by simp⟩
            · rintro ⟨_, name, ⟨found, rfl, hmisses⟩, rfl⟩
              exact ⟨found, name, hmisses, by simp⟩
        | none =>
            simp only [missesAt_of_missing hbase hnext]
            cases mode with
            | optional => simp [orMissing]
            | required =>
                constructor
                · intro h
                  cases h
                  exact ⟨rfl, [], next, ⟨rfl, rfl⟩, by simp⟩
                · rintro ⟨_, _, _, ⟨rfl, rfl⟩, rfl⟩
                  simp [orMissing]

/-- What a path leads to is its value. It is `absent` also where the path has come to `absent` before its end, and
where a name is missing that need not be there. -/
theorem resolve_eq_ok_iff : base.resolve before segments mode = .ok v ↔
    base.Leads segments v ∨ v = .absent ∧
      (base.LeadsToAbsent segments ∨ mode = .optional ∧ ∃ found name, base.MissesAt segments found name) := by
  induction segments generalizing base before with
  | nil =>
      simp only [resolve, leads_nil, leadsToAbsent_nil, not_missesAt_nil, Except.ok.injEq]
      constructor
      · exact fun h => .inl h.symm
      · rintro (rfl | ⟨rfl, rfl | ⟨_, _, _, ⟨⟩⟩⟩) <;> rfl
  | cons next segments ih =>
      by_cases hbase : base = .absent
      · subst hbase
        simp [resolve_absent, not_absent_leads, absent_leadsToAbsent, eq_comm]
      · rw [resolve_member hbase, leads_cons hbase, leadsToAbsent_cons hbase]
        cases hnext : base.member? next with
        | some w =>
            have hmisses : (∃ found name, base.MissesAt (next :: segments) found name) ↔
                ∃ found name, w.MissesAt segments found name := by
              simp only [missesAt_of_member hbase hnext]
              constructor
              · rintro ⟨_, name, found, rfl, hmisses⟩
                exact ⟨found, name, hmisses⟩
              · rintro ⟨found, name, hmisses⟩
                exact ⟨_, name, found, rfl, hmisses⟩
            simp [ih, hmisses]
        | none =>
            simp only [missesAt_of_missing hbase hnext]
            cases mode <;> simp [orMissing, eq_comm]

end Names

end Value

/-! ## Paths on a line -/

namespace Checked

variable {α β : Type} {line : Nat}

theorem pure_bind (a : α) (f : α → Checked β) : pure a >>= f = f a := by
  simp only [bind, pure]
  cases f a <;> rfl

theorem ofExcept_bind (x : Except FaultCause α) (f : α → Except FaultCause β) :
    ofExcept line (x >>= f) = ofExcept line x >>= fun a => ofExcept line (f a) := by
  cases x with
  | error cause => rfl
  | ok a => exact (pure_bind a fun a => ofExcept line (f a)).symm

theorem ofExcept_eq_error_iff {x : Except FaultCause α} {e : RuntimeError} :
    ofExcept line x = .error e ↔ ∃ cause, x = .error cause ∧ e = ⟨line, cause⟩ := by
  cases x with
  | error cause =>
      constructor
      · intro h
        cases h
        exact ⟨cause, rfl, rfl⟩
      · rintro ⟨_, ⟨⟩, rfl⟩
        rfl
  | ok a =>
      constructor
      · rintro ⟨⟩
      · rintro ⟨_, ⟨⟩, _⟩

end Checked

/-- A longer path goes on from where the shorter one leads. -/
theorem Expr.eval_path_append (strict : Bool) (env : Environment) (line : Nat) (mode : Resolution) (root : String)
    (s t : List String) :
    (path (root :: (s ++ t))).eval strict env line mode =
      (path (root :: s)).eval strict env line mode >>= fun v =>
        .ofExcept line (v.resolve (root :: s) t mode) := by
  simp only [eval]
  cases env.lookup root with
  | some v =>
      simp only [Value.resolve_append, Checked.ofExcept_bind]
      rfl
  | none =>
      cases mode with
      | optional =>
          refine Eq.trans ?_ (Checked.pure_bind Value.absent _).symm
          rw [Value.resolve_absent]
          rfl
      | required => rfl

namespace Value

/-- Paths compose, and so do their errors: a path followed in two parts, of which the second knows the names of the
first, comes to the same as the whole path. It fails only where a name that is required is missing, at its line and
with the names up to the first one missing, and else comes to what its names lead to or to `absent`. Where it has come
to `absent` it stays, whatever follows. -/
theorem resolve_composes (base : Value) (before s t : List String) (mode : Resolution) (line : Nat) :
    Checked.ofExcept line (base.resolve before (s ++ t) mode) =
      (Checked.ofExcept line (base.resolve before s mode) >>= fun v =>
        .ofExcept line (v.resolve (before ++ s) t mode)) ∧
    (∀ e, Checked.ofExcept line (base.resolve before s mode) = .error e ↔
      mode = .required ∧ ∃ found name, base.MissesAt s found name ∧
        e = ⟨line, .missing (.names (before ++ found ++ [name]))⟩) ∧
    (∀ v, base.resolve before s mode = .ok v ↔
      base.Leads s v ∨ v = .absent ∧
        (base.LeadsToAbsent s ∨ mode = .optional ∧ ∃ found name, base.MissesAt s found name)) ∧
    (base.resolve before s mode = .ok .absent → base.resolve before (s ++ t) mode = .ok .absent) := by
  refine ⟨?_, fun e => ?_, fun v => resolve_eq_ok_iff, fun h => resolve_append_of_absent h t⟩
  · rw [resolve_append, Checked.ofExcept_bind]
  · rw [Checked.ofExcept_eq_error_iff]
    constructor
    · rintro ⟨_, hcause, rfl⟩
      obtain ⟨rfl, found, name, hmisses, rfl⟩ := resolve_eq_error_iff.1 hcause
      exact ⟨rfl, found, name, hmisses, rfl⟩
    · rintro ⟨rfl, found, name, hmisses, rfl⟩
      exact ⟨_, resolve_eq_error_iff.2 ⟨rfl, found, name, hmisses, rfl⟩, rfl⟩

/-- A model with the path `a.b`, which leads to `null`. -/
def nested : Value := .object (.ofMembers [] [("a", .object (.ofMembers [0] [("b", .null)]))])

/-- An object all of whose members are `absent`. -/
def hollow : Value := .object ⟨[], fun _ => some .absent, [], none, none, fun _ => none⟩

/-- A path that goes on behind `null` with two names that are missing, and one that goes on behind `absent`. -/
theorem resolve_composes_missing :
    Checked.ofExcept 9 (nested.resolve [modelName] ["a", "b", "c", "d"] .required) =
        .error ⟨9, .missing (.names ["Model", "a", "b", "c"])⟩ ∧
      hollow.resolve [] ["a"] .required = .ok .absent ∧
      hollow.resolve [] ["a", "b"] .required = .ok .absent := by
  have hfront : nested.resolve [modelName] ["a", "b"] .required = .ok .null := by cbv
  have hmisses : null.MissesAt ["c", "d"] [] "c" := (missesAt_of_missing (by simp) (by cbv)).2 ⟨rfl, rfl⟩
  have hback := ((resolve_composes .null [modelName, "a", "b"] ["c", "d"] [] .required 9).2.1 _).2
    ⟨rfl, [], "c", hmisses, rfl⟩
  have hwhole := (resolve_composes nested [modelName] ["a", "b"] ["c", "d"] .required 9).1
  rw [hfront] at hwhole
  refine ⟨hwhole.trans ?_, rfl, (resolve_composes hollow [] ["a"] ["b"] .required 9).2.2.2 rfl⟩
  exact (Checked.pure_bind Value.null _).trans hback

end Value

end MailTemplate
