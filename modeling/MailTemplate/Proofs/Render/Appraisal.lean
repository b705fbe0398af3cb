import MailTemplate.Proofs.Value.Presence
import MailTemplate.Render.Eval
import Mathlib

/-!
# Evaluating with an account

What an expression comes to, together with the operators that are applied on the way and their operands. A
strict evaluation and one that is not strict are both seen in it, and differ by their warnings alone
(`Expr.eval_eq_checked`). Where all that is required is there, it makes no difference whether it is required
(`Expr.appraise_optional`).
-/

namespace MailTemplate

/-- An operator and the two values that it is applied to. -/
structure Application where
  op : BinaryOp
  left : Value
  right : Value

/-- What evaluating comes to, and the operators that were applied on the way. -/
structure Appraisal (α : Type) where
  result : Except RuntimeError α
  applications : List Application

namespace Appraisal

instance : Monad Appraisal where
  pure a := ⟨.ok a, []⟩
  bind x f := match x.result with
    | .error e => ⟨.error e, x.applications⟩
    | .ok a => ⟨(f a).result, x.applications ++ (f a).applications⟩

def fail {α : Type} (line : Nat) (cause : FaultCause) : Appraisal α := ⟨.error ⟨line, cause⟩, []⟩

def ofExcept {α : Type} (line : Nat) : Except FaultCause α → Appraisal α
  | .ok a => pure a
  | .error cause => fail line cause

end Appraisal

/-- Applies an operator, or finds that it does not apply. -/
def Application.appraise (line : Nat) (a : Application) : Appraisal Value :=
  match Value.result? a.op a.left a.right with
  | some v => ⟨.ok v, [a]⟩
  | none => ⟨.error ⟨line, .operands a.op a.left.kind a.right.kind⟩, [a]⟩

/-- Evaluates an expression and tells the operators that are applied, in their order; `&&` and `||` choose
their operands and are not among them. -/
def Expr.appraise (env : Environment) (line : Nat) (mode : Resolution) : Expr → Appraisal Value
  | number x => pure (.number x)
  | string s => pure (.string s)
  | bool b => pure (.bool b)
  | null => pure .null
  | path [] => pure .absent
  | path (root :: rest) =>
      match env.lookup root, mode with
      | some v, mode => .ofExcept line (v.resolve [root] rest mode)
      | none, .optional => pure .absent
      | none, .required => .fail line (.missing (.names [root]))
  | member base name => do
      .ofExcept line ((← base.appraise env line mode).resolve [] [name] mode)
  | index base position => do
      let b ← base.appraise env line mode
      let i ← position.appraise env line mode
      .ofExcept line (b.index i mode)
  | unary .not e => do return .bool !(← e.appraise env line mode).isTruthy
  | unary .neg e => do
      match ← e.appraise env line mode with
      | .number x => return .number (-x)
      | v => .fail line (.negation v.kind)
  | binary .andAlso l r => do
      if (← l.appraise env line mode).isTruthy then
        return .bool (← r.appraise env line mode).isTruthy
      else return .bool false
  | binary .orElse l r => do
      if (← l.appraise env line mode).isTruthy then return .bool true
      else return .bool (← r.appraise env line mode).isTruthy
  | binary op l r => do
      let a ← l.appraise env line mode
      let b ← r.appraise env line mode
      Application.appraise line ⟨op, a, b⟩
  | cond test yes no => do
      if (← test.appraise env line .optional).isTruthy then yes.appraise env line mode
      else no.appraise env line mode

/-- The warning that a division or a remainder of two numbers deserves when the second one is zero. -/
def Application.zeroDivision? (line : Nat) : Application → Option Warning
  | ⟨.div, .number a, .number b⟩ => if b == 0 then some ⟨line, .divisionByZero a .div⟩ else none
  | ⟨.rem, .number a, .number b⟩ => if b == 0 then some ⟨line, .divisionByZero a .rem⟩ else none
  | _ => none

theorem Application.zeroDivision?_eq (line : Nat) (a : Application) :
    a.zeroDivision? line = (Value.warning? a.op a.left a.right).map (Warning.mk line) := by
  obtain ⟨op, l, r⟩ := a
  cases op with
  | div | rem =>
      cases l with
      | number x =>
          cases r with
          | number y =>
              simp only [zeroDivision?, Value.warning?]
              split <;> rfl
          | _ => rfl
      | _ => rfl
  | _ => rfl

namespace Appraisal

variable {α β : Type} {x : Appraisal α} {f : α → Appraisal β} {strict : Bool} {line : Nat}

/-- What a strict evaluation, or another one, makes of it. -/
def checked (strict : Bool) (line : Nat) (x : Appraisal α) : Checked α :=
  match x.result with
  | .ok a => .ok (a, if strict then x.applications.filterMap (·.zeroDivision? line) else [])
  | .error e => .error e

theorem checked_pure (a : α) : (pure a : Appraisal α).checked strict line = pure a := by
  cases strict <;> rfl

theorem checked_ofExcept (r : Except FaultCause α) :
    (ofExcept line r).checked strict line = .ofExcept line r := by
  cases r with
  | ok a => exact checked_pure a
  | error cause => rfl

theorem checked_bind : (x >>= f).checked strict line = x.checked strict line >>= fun a =>
    (f a).checked strict line := by
  obtain ⟨_ | a, applications⟩ := x
  · rfl
  · change checked strict line ⟨(f a).result, applications ++ (f a).applications⟩ = _
    simp only [checked, bind]
    cases (f a).result with
    | error e => rfl
    | ok b => cases strict <;> simp only [List.filterMap_append, if_true, Bool.false_eq_true, if_false] <;> rfl

end Appraisal

theorem Application.checked_appraise (strict : Bool) (line : Nat) (op : BinaryOp) (l r : Value) :
    (Application.appraise line ⟨op, l, r⟩).checked strict line = op.eval strict line l r := by
  unfold Application.appraise BinaryOp.eval
  simp only
  cases Value.result? op l r with
  | none => rfl
  | some v =>
      simp only [Appraisal.checked, List.filterMap_cons, zeroDivision?_eq]
      cases Value.warning? op l r <;> rfl

theorem Expr.eval_eq_checked (strict : Bool) (env : Environment) (line : Nat) (mode : Resolution) (e : Expr) :
    e.eval strict env line mode = (e.appraise env line mode).checked strict line := by
  induction e generalizing mode with
  | number | string | bool | null => exact (Appraisal.checked_pure _).symm
  | path segments =>
      cases segments with
      | nil => exact (Appraisal.checked_pure _).symm
      | cons root rest =>
          simp only [eval, appraise]
          cases env.lookup root with
          | some v => exact (Appraisal.checked_ofExcept _).symm
          | none =>
              cases mode with
              | optional => exact (Appraisal.checked_pure _).symm
              | required => rfl
  | member base name ih =>
      simp only [eval, appraise, Appraisal.checked_bind, Appraisal.checked_ofExcept, ih]
  | index base position ih ihPosition =>
      simp only [eval, appraise, Appraisal.checked_bind, Appraisal.checked_ofExcept, ih, ihPosition]
  | unary op e ih =>
      cases op with
      | not => simp only [eval, appraise, Appraisal.checked_bind, Appraisal.checked_pure, ih]
      | neg =>
          simp only [eval, appraise, Appraisal.checked_bind, ih]
          refine congrArg (bind _) (funext fun v => ?_)
          cases v with
          | number x => exact (Appraisal.checked_pure _).symm
          | _ => rfl
  | binary op l r ihLeft ihRight =>
      cases op with
      | andAlso | orElse =>
          simp only [eval, appraise, Appraisal.checked_bind, ihLeft, ihRight]
          refine congrArg (bind _) (funext fun v => ?_)
          split <;> simp only [Appraisal.checked_bind, Appraisal.checked_pure]
      | _ =>
          simp only [eval, appraise, Appraisal.checked_bind, Application.checked_appraise, ihLeft, ihRight]
  | cond test yes no ihTest ihYes ihNo =>
      simp only [eval, appraise, Appraisal.checked_bind, ihTest, ihYes, ihNo]
      refine congrArg (bind _) (funext fun v => ?_)
      split <;> rfl

/-! ## Required and optional parts -/

namespace Appraisal

variable {α β : Type} {x y : Appraisal α} {f g : α → Appraisal β} {b : β} {line : Nat}

theorem bind_eq_ok_iff :
    (x >>= f).result = .ok b ↔ ∃ a, x.result = .ok a ∧ (f a).result = .ok b := by
  obtain ⟨_ | a, applications⟩ := x
  · constructor
    · rintro ⟨⟩
    · rintro ⟨_, ⟨⟩, _⟩
  · constructor
    · exact fun h => ⟨a, rfl, h⟩
    · rintro ⟨_, ⟨⟩, h⟩
      exact h

theorem ofExcept_eq_ok_iff {r : Except FaultCause α} {a : α} :
    (ofExcept line r).result = .ok a ↔ r = .ok a := by
  cases r with
  | ok a' => exact ⟨fun h => by cases h; rfl, fun h => by cases h; rfl⟩
  | error cause => exact ⟨nofun, nofun⟩

theorem ofExcept_eq_of_ok {r r' : Except FaultCause α} {a : α} (h : (ofExcept line r).result = .ok a)
    (hr : ∀ a, r = .ok a → r' = .ok a) : ofExcept line r' = ofExcept line r := by
  have hok := ofExcept_eq_ok_iff.1 h
  rw [hok, hr a hok]

/-- Two evaluations are one if their parts are whenever they give something, and the second gives something. -/
theorem bind_eq_of_ok (h : (x >>= f).result = .ok b) (hxy : ∀ a, x.result = .ok a → y = x)
    (hfg : ∀ a, (f a).result = .ok b → g a = f a) : y >>= g = x >>= f := by
  obtain ⟨a, ha, hb⟩ := bind_eq_ok_iff.1 h
  obtain rfl := hxy a ha
  obtain ⟨_, applications⟩ := y
  cases ha
  change (⟨(g a).result, applications ++ (g a).applications⟩ : Appraisal β) = _
  rw [hfg a hb]
  rfl

theorem ite_eq_of_ok {c : Prop} [Decidable c] {x' y' : Appraisal α} {a : α}
    (h : (if c then x else x').result = .ok a) (hxy : x.result = .ok a → y = x)
    (hxy' : x'.result = .ok a → y' = x') : (if c then y else y') = if c then x else x' := by
  by_cases hc : c
  · rw [if_pos hc] at h
    rw [if_pos hc, if_pos hc, hxy h]
  · rw [if_neg hc] at h
    rw [if_neg hc, if_neg hc, hxy' h]

end Appraisal

theorem Expr.appraise_optional {env : Environment} {line : Nat} {e : Expr} {v : Value}
    (h : (e.appraise env line .required).result = .ok v) :
    e.appraise env line .optional = e.appraise env line .required := by
  induction e generalizing v with
  | number | string | bool | null => rfl
  | path segments =>
      cases segments with
      | nil => rfl
      | cons root rest =>
          simp only [appraise] at h ⊢
          cases hroot : env.lookup root with
          | none => rw [hroot] at h; cases h
          | some base =>
              rw [hroot] at h
              exact Appraisal.ofExcept_eq_of_ok h fun _ => Value.resolve_optional
  | member base name ih =>
      simp only [appraise] at h ⊢
      refine Appraisal.bind_eq_of_ok h (fun _ => ih) fun _ h => ?_
      exact Appraisal.ofExcept_eq_of_ok h fun _ => Value.resolve_optional
  | index base position ih ihPosition =>
      simp only [appraise] at h ⊢
      refine Appraisal.bind_eq_of_ok h (fun _ => ih) fun _ h => ?_
      refine Appraisal.bind_eq_of_ok h (fun _ => ihPosition) fun _ h => ?_
      exact Appraisal.ofExcept_eq_of_ok h fun _ => Value.index_optional
  | unary op e ih =>
      cases op with
      | not | neg =>
          simp only [appraise] at h ⊢
          exact Appraisal.bind_eq_of_ok h (fun _ => ih) fun _ _ => rfl
  | binary op l r ihLeft ihRight =>
      cases op with
      | andAlso =>
          simp only [appraise] at h ⊢
          refine Appraisal.bind_eq_of_ok h (fun _ => ihLeft) fun _ h =>
            Appraisal.ite_eq_of_ok h (fun h => ?_) fun _ => rfl
          exact Appraisal.bind_eq_of_ok h (fun _ => ihRight) fun _ _ => rfl
      | orElse =>
          simp only [appraise] at h ⊢
          refine Appraisal.bind_eq_of_ok h (fun _ => ihLeft) fun _ h =>
            Appraisal.ite_eq_of_ok h (fun _ => rfl) fun h => ?_
          exact Appraisal.bind_eq_of_ok h (fun _ => ihRight) fun _ _ => rfl
      | _ =>
          simp only [appraise] at h ⊢
          refine Appraisal.bind_eq_of_ok h (fun _ => ihLeft) fun _ h => ?_
          exact Appraisal.bind_eq_of_ok h (fun _ => ihRight) fun _ _ => rfl
  | cond test yes no ihTest ihYes ihNo =>
      simp only [appraise] at h ⊢
      -- The test is optional in any case.
      exact Appraisal.bind_eq_of_ok h (fun _ _ => rfl) fun _ h => Appraisal.ite_eq_of_ok h ihYes ihNo

end MailTemplate
