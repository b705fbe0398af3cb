import MailTemplate.Proofs.Value.Paths
import MailTemplate.Render.Eval

/-!
# Missing parts

What it is for a name, a key or a position to be missing, told of the data and not of the functions that look it
up. An index fails if and only if the value has nothing at the position (`Value.index_eq_error_iff`), and a path or
an index whose parts are required fails where one is missing (`Expr.eval_of_lacks`). So does every expression that
it is evaluated for (`Expr.Requires.eval_error`).
-/

namespace MailTemplate

/-! ## Parts of values -/

namespace Value

/-- One of the names of the length of a value, in any case. -/
def NamesLength (name : String) : Prop := lowerAscii name = "count" ∨ lowerAscii name = "length"

/-- The value has no member of the name, neither of its own nor built in. -/
def LacksMember : Value → String → Prop
  | object o, name => o.member name = none ∧ (NamesLength name → o.count = none)
  | string _, name | list _, name => ¬ NamesLength name
  | _, _ => True

/-- The value has nothing at the position, for the cause that is told then. -/
inductive LacksAt : Value → Value → FaultCause → Prop
  | key {v name} : v.isComposite = true → v.LacksMember name → LacksAt v (.string name) (.missing (.key name))
  | beyond {items x} : (∀ i, position? x = some i → items.length ≤ i) →
      LacksAt (.list items) (.number x) (.outOfRange x items.length)
  | element {o x count} : o.count = some count → (∀ i, position? x = some i → o.element i = none) →
      LacksAt (.object o) (.number x) (.outOfRange x count)
  /-- An object that is no sequence. -/
  | uncounted {o x} : o.count = none → LacksAt (.object o) (.number x) .objectPosition
  | scalar {v p} : v.isComposite = false → LacksAt v p (.indexKinds v.kind p.kind)
  | kind {v p} : (∀ name, p ≠ .string name) → (∀ x, p ≠ .number x) → LacksAt v p (.indexKinds v.kind p.kind)

variable {base position : Value} {name : String} {cause : FaultCause}

theorem builtin?_eq_none_iff : base.builtin? name = none ↔
    (NamesLength name → base.count? = none ∧ ∀ s, base ≠ .string s) := by
  have hnames : (lowerAscii name == "count" || lowerAscii name == "length") = true ↔ NamesLength name := by
    simp [NamesLength]
  unfold builtin?
  split
  · rename_i h
    rw [hnames] at h
    cases base <;> simp [h, count?]
  · rename_i h
    rw [hnames] at h
    simp [h]

theorem member?_eq_none_iff : base.member? name = none ↔ base.LacksMember name := by
  cases base with
  | object o =>
      unfold member? LacksMember
      cases hown : o.member name with
      | some v => simp [hown]
      | none => simp [hown, builtin?_eq_none_iff, count?]
  | _ => simp [member?, LacksMember, builtin?_eq_none_iff, count?]

/-- A path fails at the first name that is missing behind names that lead to a value. -/
theorem resolve_of_lacks {v : Value} {before found rest : List String} (hfound : base.Leads found v)
    (hv : v ≠ .absent) (hname : v.LacksMember name) :
    base.resolve before (found ++ name :: rest) .required =
      .error (.missing (.names (before ++ found ++ [name]))) :=
  resolve_eq_error_iff.2
    ⟨rfl, found, name, ⟨v, rest, rfl, hfound, hv, member?_eq_none_iff.2 hname⟩, rfl⟩

theorem orMissing_eq_error_iff {found : Option Value} {c : FaultCause} :
    orMissing found .required c = .error cause ↔ found = none ∧ c = cause := by
  cases found <;> simp [orMissing]

theorem index_scalar (hbase : base.isComposite = false) :
    base.index position .required = .error (.indexKinds base.kind position.kind) := by
  cases base with
  | list | object => cases hbase
  | _ => rfl

/-- A sequence is looked up by numbers, and fails where the number is not the position of an element. -/
theorem index_number_eq_error_iff {x : Float} {count : Nat} (hbase : base.isComposite = true)
    (hcount : base.count? = some count) : base.index (.number x) .required = .error cause ↔
      (∀ i, position? x = some i → base.element? i = none) ∧ .outOfRange x count = cause := by
  rw [← Option.bind_eq_none_iff]
  simp only [index, if_pos hbase, hcount]
  exact orMissing_eq_error_iff

/-- An index fails if and only if the value has nothing at the position. -/
theorem index_eq_error_iff : base.index position .required = .error cause ↔ base.LacksAt position cause := by
  constructor
  · intro h
    cases hbase : base.isComposite with
    | false =>
        rw [index_scalar hbase] at h
        cases h
        exact .scalar hbase
    | true =>
        cases position with
        | string key =>
            obtain ⟨hkey, rfl⟩ := orMissing_eq_error_iff.1 ((if_pos hbase).symm.trans h)
            exact .key hbase (member?_eq_none_iff.1 hkey)
        | number x =>
            cases base with
            | list items =>
                obtain ⟨hbeyond, rfl⟩ := (index_number_eq_error_iff hbase rfl).1 h
                exact .beyond fun i hi => List.getElem?_eq_none_iff.1 (hbeyond i hi)
            | object o =>
                cases hcount : o.count with
                | none =>
                    simp only [index, if_pos hbase, count?, hcount] at h
                    cases h
                    exact .uncounted hcount
                | some count =>
                    obtain ⟨helement, rfl⟩ := (index_number_eq_error_iff hbase hcount).1 h
                    exact .element hcount helement
            | _ => cases hbase
        | _ =>
            cases (if_pos hbase).symm.trans h
            exact .kind (by simp) (by simp)
  · intro h
    cases h with
    | key hbase hkey => exact (if_pos hbase).trans (orMissing_eq_error_iff.2 ⟨member?_eq_none_iff.2 hkey, rfl⟩)
    | beyond hbeyond =>
        exact (index_number_eq_error_iff rfl rfl).2 ⟨fun i hi => List.getElem?_eq_none_iff.2 (hbeyond i hi), rfl⟩
    | @element o x count hcount helement =>
        have hcount : (object o).count? = some count := hcount
        exact (index_number_eq_error_iff rfl hcount).2 ⟨helement, rfl⟩
    | uncounted hcount => simp only [index, isComposite, if_true, count?, hcount]
    | scalar hbase => exact index_scalar hbase
    | kind hstring hnumber =>
        cases hbase : base.isComposite with
        | false => exact index_scalar hbase
        | true =>
            cases position with
            | string name => exact absurd rfl (hstring name)
            | number x => exact absurd rfl (hnumber x)
            | _ => exact if_pos hbase

end Value

/-! ## Variables -/

/-- No scope binds the name, and the model has no member of that name. -/
def Environment.Lacks (env : Environment) (name : String) : Prop :=
  (∀ s ∈ env.scopes, ∀ b ∈ s, name ≠ b.1) ∧ env.model.LacksMember name

theorem Environment.lookup_eq_none_iff {env : Environment} {name : String} :
    env.lookup name = none ↔ env.Lacks name := by
  have hscopes : env.scopes.findSome? (·.lookup name) = none ↔ ∀ s ∈ env.scopes, ∀ b ∈ s, name ≠ b.1 := by
    simp only [List.findSome?_eq_none_iff, List.lookup_eq_none_iff, bne_iff_ne]
  unfold lookup Lacks
  rw [← hscopes, ← Value.member?_eq_none_iff]
  cases env.scopes.findSome? (·.lookup name) <;> simp

/-! ## Expressions -/

namespace Checked

variable {α β : Type} {x : Checked α} {f : α → Checked β} {e : RuntimeError}

theorem bind_of_error (h : x = .error e) : x >>= f = .error e := by
  rw [h]
  rfl

theorem bind_error_of_ok {a : α} {ws : List Warning} (hx : x = .ok (a, ws)) (hf : f a = .error e) :
    x >>= f = .error e := by
  rw [hx]
  simp only [bind, hf]
  rfl

end Checked

namespace Expr

variable (strict : Bool) (env : Environment) (line : Nat)

/-- The expression has the value, with whatever warnings. -/
def Gives (mode : Resolution) (e : Expr) (v : Value) : Prop := ∃ ws, e.eval strict env line mode = .ok (v, ws)

/-- With this value on its left, the operator evaluates what is on its right. -/
def GoesOn (op : BinaryOp) (v : Value) : Prop :=
  (op = .andAlso → v.isTruthy = true) ∧ (op = .orElse → v.isTruthy = false)

/-- To evaluate the first expression with its parts required, the second one is evaluated with its parts
required. -/
inductive Requires : Expr → Expr → Prop
  | here (e : Expr) : Requires e e
  | member {base name e} : Requires base e → Requires (.member base name) e
  | base {base position e} : Requires base e → Requires (.index base position) e
  | position {base position v e} : base.Gives strict env line .required v → Requires position e →
      Requires (.index base position) e
  | operand {op a e} : Requires a e → Requires (.unary op a) e
  | left {op l r e} : Requires l e → Requires (.binary op l r) e
  | right {op l r v e} : l.Gives strict env line .required v → GoesOn op v → Requires r e →
      Requires (.binary op l r) e
  | yes {test yes no v e} : test.Gives strict env line .optional v → v.isTruthy = true → Requires yes e →
      Requires (.cond test yes no) e
  | no {test yes no v e} : test.Gives strict env line .optional v → v.isTruthy = false → Requires no e →
      Requires (.cond test yes no) e

/-- A part is missing that the path or the index leads through, for the cause that is told then. -/
inductive Lacks : Expr → FaultCause → Prop
  | root {name rest} : env.Lacks name → Lacks (.path (name :: rest)) (.missing (.names [name]))
  | name {root base found v name rest} : env.lookup root = some base → base.Leads found v → v ≠ .absent →
      v.LacksMember name →
      Lacks (.path (root :: (found ++ name :: rest))) (.missing (.names (root :: found ++ [name])))
  | member {base v name} : base.Gives strict env line .required v → v ≠ .absent → v.LacksMember name →
      Lacks (.member base name) (.missing (.names [name]))
  | index {base position v p cause} : base.Gives strict env line .required v →
      position.Gives strict env line .required p → v.LacksAt p cause → Lacks (.index base position) cause

variable {strict env line} {e e' : Expr} {cause : FaultCause} {err : RuntimeError}

/-- A path or index with a missing part fails on its line, and tells which part that is. -/
theorem eval_of_lacks (h : e.Lacks strict env line cause) :
    e.eval strict env line .required = .error ⟨line, cause⟩ := by
  cases h with
  | root hroot =>
      simp only [eval, Environment.lookup_eq_none_iff.2 hroot]
      rfl
  | name hroot hfound hv hname =>
      simp only [eval, hroot, Value.resolve_of_lacks hfound hv hname]
      rfl
  | @member base v name hbase hv hname =>
      obtain ⟨ws, hbase⟩ := hbase
      have hmissing : v.resolve [] [name] .required = .error (.missing (.names [name])) :=
        Value.resolve_of_lacks (.here v) hv hname
      simp only [eval]
      refine Checked.bind_error_of_ok hbase ?_
      rw [hmissing]
      rfl
  | index hbase hposition hlacks =>
      obtain ⟨ws, hbase⟩ := hbase
      obtain ⟨ws', hposition⟩ := hposition
      simp only [eval]
      refine Checked.bind_error_of_ok hbase (Checked.bind_error_of_ok hposition ?_)
      rw [Value.index_eq_error_iff.2 hlacks]
      rfl

/-- What fails below fails above, whatever is made of it. -/
theorem Requires.eval_error (h : Requires strict env line e e')
    (herror : e'.eval strict env line .required = .error err) :
    e.eval strict env line .required = .error err := by
  induction h with
  | here => exact herror
  | member _ ih | base _ ih =>
      simp only [eval]
      exact Checked.bind_of_error (ih herror)
  | position hbase _ ih =>
      obtain ⟨ws, hbase⟩ := hbase
      simp only [eval]
      exact Checked.bind_error_of_ok hbase (Checked.bind_of_error (ih herror))
  | @operand op _ _ _ ih =>
      cases op <;> simp only [eval] <;> exact Checked.bind_of_error (ih herror)
  | @left op _ _ _ _ ih =>
      cases op <;> simp only [eval] <;> exact Checked.bind_of_error (ih herror)
  | @right op _ _ v _ hleft hgoes _ ih =>
      obtain ⟨ws, hleft⟩ := hleft
      cases op with
      | andAlso =>
          simp only [eval]
          refine Checked.bind_error_of_ok hleft ?_
          rw [if_pos (hgoes.1 rfl)]
          exact Checked.bind_of_error (ih herror)
      | orElse =>
          simp only [eval]
          refine Checked.bind_error_of_ok hleft ?_
          rw [if_neg (by simp [hgoes.2 rfl])]
          exact Checked.bind_of_error (ih herror)
      | _ =>
          simp only [eval]
          exact Checked.bind_error_of_ok hleft (Checked.bind_of_error (ih herror))
  | yes htest htrue _ ih =>
      obtain ⟨ws, htest⟩ := htest
      simp only [eval]
      refine Checked.bind_error_of_ok htest ?_
      rw [if_pos htrue]
      exact ih herror
  | no htest hfalse _ ih =>
      obtain ⟨ws, htest⟩ := htest
      simp only [eval]
      refine Checked.bind_error_of_ok htest ?_
      rw [if_neg (by simp [hfalse])]
      exact ih herror

end Expr

end MailTemplate
