import MailTemplate.Json.Basic
import MailTemplate.Proofs.Grammar.ExprPrinter
import MailTemplate.Proofs.Render.Invariants

/-!
# Nothing absent in a journal

Where neither the model nor any variable has anything absent in it, required expressions give nothing absent
(`Expr.Proper.appraise_present`). So a run brings nothing absent into its journal: it binds no variable to it, and
prints, stores and goes through nothing of it (`Journaled.interpreter_present`).
-/

namespace MailTemplate

/-! ## Variables -/

/-- No variable and no member of the model has anything absent in it. -/
structure Environment.Present (env : Environment) : Prop where
  model : env.model.Present
  bound : ∀ s ∈ env.scopes, ∀ b ∈ s, b.2.Present

theorem Scope.set_present {s : Scope} {v : Value} (hs : ∀ b ∈ s, b.2.Present) (hv : v.Present) (name : String) :
    ∀ b ∈ s.set name v, b.2.Present := by
  intro b hb
  obtain ⟨old, hold, rfl⟩ := List.mem_map.1 hb
  split
  · exact hv
  · exact hs old hold

namespace Environment

theorem present_new {model : Value} (h : model.Present) : (new model).Present where
  model := h
  bound := by
    simp only [new, List.forall_mem_cons]
    exact ⟨List.forall_mem_nil _, ⟨h, List.forall_mem_nil _⟩, List.forall_mem_nil _⟩

theorem assignIn_present {name : String} {v : Value} (hv : v.Present) {scopes scopes' : List Scope}
    (hscopes : ∀ s ∈ scopes, ∀ b ∈ s, b.2.Present) (h : assignIn name v scopes = some scopes') :
    ∀ s ∈ scopes', ∀ b ∈ s, b.2.Present := by
  fun_induction assignIn name v scopes generalizing scopes' with
  | case1 | case2 => cases h
  | case3 s ss _ _ =>
      cases h
      obtain ⟨hs, hss⟩ := List.forall_mem_cons.1 hscopes
      exact List.forall_mem_cons.2 ⟨Scope.set_present hs hv name, hss⟩
  | case4 s ss _ _ ih =>
      obtain ⟨ss', hss', rfl⟩ := Option.map_eq_some_iff.1 h
      obtain ⟨hs, hss⟩ := List.forall_mem_cons.1 hscopes
      exact List.forall_mem_cons.2 ⟨hs, ih hss hss'⟩

namespace Present

variable {env env' : Environment} {name : String} {v : Value}

theorem lookup (h : env.Present) (hv : env.lookup name = some v) : v.Present := by
  unfold Environment.lookup at hv
  split at hv
  · rename_i hbound
    cases hv
    obtain ⟨s, hs, hname⟩ := List.exists_of_findSome?_eq_some hbound
    exact h.bound s hs _ (Value.mem_of_lookup hname)
  · exact h.model.member hv

theorem push (h : env.Present) : env.push.Present where
  model := h.model
  bound := List.forall_mem_cons.2 ⟨List.forall_mem_nil _, h.bound⟩

theorem pop (h : env.Present) : env.pop.Present := by
  unfold Environment.pop
  split
  · exact ⟨h.model, fun s hs => h.bound s (List.mem_of_mem_tail hs)⟩
  · exact h

theorem declare (h : env.Present) (hv : v.Present) (hdeclare : env.declare name v = .ok env') :
    env'.Present := by
  unfold Environment.declare at hdeclare
  split at hdeclare
  · cases hdeclare
  · split at hdeclare
    · cases hdeclare
    · rename_i s ss hscopes
      split at hdeclare
      · cases hdeclare
      · cases hdeclare
        have hbound := h.bound
        rw [hscopes] at hbound
        obtain ⟨hs, hss⟩ := List.forall_mem_cons.1 hbound
        exact ⟨h.model, List.forall_mem_cons.2 ⟨List.forall_mem_cons.2 ⟨hv, hs⟩, hss⟩⟩

theorem assign (h : env.Present) (hv : v.Present) (hassign : env.assign name v = .ok env') :
    env'.Present := by
  unfold Environment.assign at hassign
  split at hassign
  · rename_i scopes hscopes
    cases hassign
    exact ⟨h.model, assignIn_present hv h.bound hscopes⟩
  · split at hassign <;> cases hassign

end Present

end Environment

/-! ## Expressions -/

theorem Application.appraise_present {line : Nat} {a : Application} {v : Value}
    (hv : (a.appraise line).result = .ok v) : v.Present := by
  unfold appraise at hv
  split at hv
  · rename_i hresult
    cases hv
    exact Value.result?_present hresult
  · cases hv

/-- What a proper expression gives when it is required has nothing absent in it. -/
theorem Expr.Proper.appraise_present {env : Environment} (henv : env.Present) {line : Nat} {e : Expr}
    (he : e.Proper) {v : Value} (hv : (e.appraise env line .required).result = .ok v) : v.Present := by
  induction e generalizing v with
  | number x =>
      cases hv
      exact .number x
  | string s =>
      cases hv
      exact .string s
  | bool b =>
      cases hv
      exact .bool b
  | null =>
      cases hv
      exact .null
  | path segments =>
      cases segments with
      | nil => exact absurd rfl he
      | cons root rest =>
          simp only [appraise] at hv
          cases hroot : env.lookup root with
          | none => rw [hroot] at hv; cases hv
          | some base =>
              rw [hroot] at hv
              exact (henv.lookup hroot).resolve (Appraisal.ofExcept_eq_ok_iff.1 hv)
  | member base name ih =>
      obtain ⟨b, hb, hv⟩ := Appraisal.bind_eq_ok_iff.1 hv
      exact (ih he.1 hb).resolve (Appraisal.ofExcept_eq_ok_iff.1 hv)
  | index base position ih _ =>
      obtain ⟨b, hb, hv⟩ := Appraisal.bind_eq_ok_iff.1 hv
      obtain ⟨i, _, hv⟩ := Appraisal.bind_eq_ok_iff.1 hv
      exact (ih he.1 hb).index (Appraisal.ofExcept_eq_ok_iff.1 hv)
  | unary op e _ =>
      cases op with
      | not =>
          obtain ⟨a, _, hv⟩ := Appraisal.bind_eq_ok_iff.1 hv
          cases hv
          exact .bool _
      | neg =>
          obtain ⟨a, _, hv⟩ := Appraisal.bind_eq_ok_iff.1 hv
          split at hv <;> cases hv
          exact .number _
  | binary op l r _ _ =>
      cases op with
      | andAlso =>
          obtain ⟨a, _, hv⟩ := Appraisal.bind_eq_ok_iff.1 hv
          split at hv
          · obtain ⟨b, _, hv⟩ := Appraisal.bind_eq_ok_iff.1 hv
            cases hv
            exact .bool _
          · cases hv
            exact .bool _
      | orElse =>
          obtain ⟨a, _, hv⟩ := Appraisal.bind_eq_ok_iff.1 hv
          split at hv
          · cases hv
            exact .bool _
          · obtain ⟨b, _, hv⟩ := Appraisal.bind_eq_ok_iff.1 hv
            cases hv
            exact .bool _
      | _ =>
          obtain ⟨a, _, hv⟩ := Appraisal.bind_eq_ok_iff.1 hv
          obtain ⟨b, _, hv⟩ := Appraisal.bind_eq_ok_iff.1 hv
          exact Application.appraise_present hv
  | cond test yes no _ ihYes ihNo =>
      obtain ⟨a, _, hv⟩ := Appraisal.bind_eq_ok_iff.1 hv
      split at hv
      · exact ihYes he.2.1 hv
      · exact ihNo he.2.2 hv

/-! ## Journals -/

/-- No variables and no value that the event shows have anything absent in them. Operators may well be applied to
what is absent, in tests. -/
def Event.Present : Event → Prop
  | .variables env => env.Present
  | .printed v | .stored _ v | .iterated v | .bound _ v => v.Present
  | .written _ | .applied .. | .entered _ => True

structure Journal.Present (j : Journal) : Prop where
  env : j.env.Present
  events : ∀ e ∈ j.events, e.Present

theorem Event.within_iff {e : Event} : e.Within Environment.Present Value.Present ↔ e.Present := by
  cases e <;> exact Iff.rfl

theorem Journal.within_iff {j : Journal} : j.Within Environment.Present Value.Present ↔ j.Present := by
  constructor
  · rintro ⟨henv, hevents⟩
    exact ⟨henv, fun e he => Event.within_iff.1 (hevents e he)⟩
  · rintro ⟨henv, hevents⟩
    exact ⟨henv, fun e he => Event.within_iff.2 (hevents e he)⟩

theorem Journal.present_initial {model : Value} (h : model.Present) : (initial model).Present :=
  within_iff.1 (.initial (Environment.present_new h))

/-- No operation brings anything absent into the variables. -/
theorem Environment.present_invariant :
    Environment.Invariant Environment.Present Expr.Proper Value.Present where
  push henv := henv.push
  pop henv := henv.pop
  declare henv hv hdeclare := henv.declare hv hdeclare
  assign henv hv hassign := henv.assign hv hassign
  lookup henv hv := henv.lookup hv
  null := .null
  appraise he henv hv := he.appraise_present henv hv
  apply hv := Application.appraise_present hv
  elements hv hitems := hv.elements hitems

/-- No step brings anything absent into the journal. -/
theorem Journaled.interpreter_present (limit : Option Nat) (rounds : Nat) :
    (interpreter limit rounds).Related (fun Q x _ => Maintains Journal.Present Q x) Expr.Proper Value.Present
      (interpreter limit rounds) := by
  have hpresent : Journal.Present = Journal.Within Environment.Present Value.Present :=
    funext fun _ => (propext Journal.within_iff).symm
  rw [hpresent]
  exact Environment.present_invariant.journaled limit rounds

end MailTemplate
