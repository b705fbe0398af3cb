import MailTemplate.Proofs.Render.Appraisal

/-!
# Evaluating with optional parts

Where evaluating with all parts required gives a value, evaluating with optional parts gives it too, with the same
warnings. An evaluation with optional parts fails only where an operator or an index does not apply to the kinds of
its operands (`Expr.eval_optional`).
-/

namespace MailTemplate

/-! ## Paths and indexes -/

namespace Value

variable {base position : Value}

theorem orMissing_optional_failsOnly {P : FaultCause → Prop} {found : Option Value} {cause : FaultCause} :
    FailsOnly P (orMissing found .optional cause) := by
  cases found <;> exact failsOnly_ok

theorem resolve_optional_failsOnly {P : FaultCause → Prop} (before segments : List String) :
    FailsOnly P (base.resolve before segments .optional) := by
  induction segments generalizing base before with
  | nil => exact failsOnly_ok
  | cons name rest ih =>
      by_cases hbase : base = .absent
      · subst hbase
        exact failsOnly_ok
      · rw [resolve_cons hbase]
        exact orMissing_optional_failsOnly.bind fun _ _ => ih _

theorem index_optional_failsOnly :
    FailsOnly (·.faultClass = .type) (base.index position .optional) := by
  unfold index
  split
  · split
    · exact orMissing_optional_failsOnly
    · split
      · exact failsOnly_error.2 rfl
      · exact orMissing_optional_failsOnly
    · exact failsOnly_error.2 rfl
  · split
    · exact failsOnly_ok
    · exact failsOnly_error.2 rfl

end Value

/-! ## Evaluations -/

namespace Checked

variable {α β : Type} {line : Nat} {x : Checked α} {f : α → Checked β}

/-- The evaluation fails, if at all, on the given line and for the kinds of some values. -/
def KindsOnly (line : Nat) (x : Checked α) : Prop :=
  ∀ e, x = .error e → e.line = line ∧ e.cause.faultClass = .type

theorem kindsOnly_ok {r : α × List Warning} : KindsOnly line (.ok r) := nofun

theorem kindsOnly_pure {a : α} : KindsOnly line (pure a : Checked α) := nofun

theorem kindsOnly_fail {cause : FaultCause} (h : cause.faultClass = .type) :
    KindsOnly line (fail line cause : Checked α) := by
  rintro _ ⟨⟩
  exact ⟨rfl, h⟩

theorem kindsOnly_ofExcept {r : Except FaultCause α} (hr : FailsOnly (·.faultClass = .type) r) :
    KindsOnly line (ofExcept line r) := by
  cases r with
  | ok a => exact kindsOnly_pure
  | error cause => exact kindsOnly_fail (hr cause rfl)

theorem KindsOnly.bind (hx : KindsOnly line x) (hf : ∀ a, KindsOnly line (f a)) : KindsOnly line (x >>= f) := by
  intro e he
  rcases x with e' | ⟨a, ws⟩
  · cases he
    exact hx _ rfl
  · refine hf a e ?_
    simp only [Bind.bind] at he
    split at he
    · rename_i hfa
      cases he
      exact hfa
    · cases he

theorem KindsOnly.ite {c : Prop} [Decidable c] {y : Checked α} (hx : KindsOnly line x) (hy : KindsOnly line y) :
    KindsOnly line (if c then x else y) := by
  split
  · exact hx
  · exact hy

end Checked

open Checked

theorem BinaryOp.eval_kindsOnly {strict : Bool} {line : Nat} {op : BinaryOp} {l r : Value} :
    KindsOnly line (op.eval strict line l r) := by
  unfold BinaryOp.eval
  split
  · exact kindsOnly_fail rfl
  · exact kindsOnly_ok

theorem Expr.eval_optional_kindsOnly (strict : Bool) (env : Environment) (line : Nat) (e : Expr) :
    KindsOnly line (e.eval strict env line .optional) := by
  induction e with
  | number | string | bool | null => exact kindsOnly_ok
  | path segments =>
      cases segments with
      | nil => exact kindsOnly_ok
      | cons root rest =>
          simp only [eval]
          split
          · exact kindsOnly_ofExcept (Value.resolve_optional_failsOnly _ _)
          · exact kindsOnly_pure
          · contradiction
  | member base name ih =>
      rw [eval]
      exact ih.bind fun _ => kindsOnly_ofExcept (Value.resolve_optional_failsOnly _ _)
  | index base position ih ihPosition =>
      rw [eval]
      exact ih.bind fun _ => ihPosition.bind fun _ => kindsOnly_ofExcept Value.index_optional_failsOnly
  | unary op e ih =>
      cases op with
      | not =>
          rw [eval]
          exact ih.bind fun _ => kindsOnly_pure
      | neg =>
          rw [eval]
          refine ih.bind fun v => ?_
          split
          · exact kindsOnly_pure
          · exact kindsOnly_fail rfl
  | binary op l r ihLeft ihRight =>
      cases op with
      | andAlso =>
          rw [eval]
          exact ihLeft.bind fun _ => .ite (ihRight.bind fun _ => kindsOnly_pure) kindsOnly_pure
      | orElse =>
          rw [eval]
          exact ihLeft.bind fun _ => .ite kindsOnly_pure (ihRight.bind fun _ => kindsOnly_pure)
      | _ =>
          rw [eval]
          · exact ihLeft.bind fun _ => ihRight.bind fun _ => BinaryOp.eval_kindsOnly
          all_goals rintro ⟨⟩
  | cond test yes no ihTest ihYes ihNo =>
      rw [eval]
      exact ihTest.bind fun _ => .ite ihYes ihNo

/-- Evaluating with optional parts gives what evaluating with required parts gives, if that gives anything, and the
same warnings. It fails only on the kinds of values: no missing part and no position out of range is an error. -/
theorem Expr.eval_optional (strict : Bool) (env : Environment) (line : Nat) (e : Expr) :
    (∀ v ws, e.eval strict env line .required = .ok (v, ws) →
      e.eval strict env line .optional = .ok (v, ws)) ∧
    ∀ err, e.eval strict env line .optional = .error err → err.line = line ∧ err.cause.faultClass = .type := by
  refine ⟨fun v ws h => ?_, e.eval_optional_kindsOnly strict env line⟩
  rw [eval_eq_checked] at h ⊢
  cases hresult : (e.appraise env line .required).result with
  | error err =>
      rw [Appraisal.checked, hresult] at h
      cases h
  | ok v' => rwa [appraise_optional hresult]

theorem Expr.eval_required_division :
    (cond (path ["a"]) null (binary .div (number 1) (number 0))).eval true (.new .null) 3 .required =
      .ok (.number (1 / 0), [⟨3, .divisionByZero 1 .div⟩]) := by
  have hmissing : (Environment.new .null).lookup "a" = none := by cbv
  have hzero : ((0 : Float) == 0) = true := by decide
  have hwarning : Value.warning? .div (.number 1) (.number 0) = some (.divisionByZero 1 .div) := by
    rw [Value.warning?, if_pos hzero]
  have hdivision : BinaryOp.div.eval true 3 (.number 1) (.number 0) =
      .ok (.number (1 / 0), [⟨3, .divisionByZero 1 .div⟩]) := by
    simp only [BinaryOp.eval, Value.result?, Value.arithmetic, hwarning]
    rfl
  simp only [eval, hmissing]
  exact hdivision

/-- A name that is missing in a test, in front of a division by zero, and a missing name that is negated. -/
theorem Expr.eval_optional_missing :
    (cond (path ["a"]) null (binary .div (number 1) (number 0))).eval true (.new .null) 3 .optional =
        .ok (.number (1 / 0), [⟨3, .divisionByZero 1 .div⟩]) ∧
      (unary .neg (path ["a"])).eval true (.new .null) 3 .required = .error ⟨3, .missing (.names ["a"])⟩ ∧
      (unary .neg (path ["a"])).eval true (.new .null) 3 .optional = .error ⟨3, .negation .absent⟩ ∧
      (FaultCause.negation .absent).faultClass = .type := by
  have hnegation : (unary .neg (path ["a"])).eval true (.new .null) 3 .optional =
      .error ⟨3, .negation .absent⟩ := by cbv
  refine ⟨(eval_optional _ _ _ _).1 _ _ eval_required_division, by cbv, hnegation, ?_⟩
  exact ((eval_optional _ _ _ _).2 _ hnegation).2

end MailTemplate
