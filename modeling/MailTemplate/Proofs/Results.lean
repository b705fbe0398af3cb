import Mathlib.Data.List.Forall2

/-!
# How computations that may fail end

A computation that may fail succeeds if and only if each of its parts does, and fails with the error
of a part.
-/

namespace MailTemplate

variable {α β ε : Type}

theorem bind_eq_ok_iff {x : Except ε α} {f : α → Except ε β} {b : β} :
    x >>= f = .ok b ↔ ∃ a, x = .ok a ∧ f a = .ok b := by
  cases x with
  | error e =>
      constructor
      · rintro ⟨⟩
      · rintro ⟨_, ⟨⟩, _⟩
  | ok a =>
      constructor
      · exact fun h => ⟨a, rfl, h⟩
      · rintro ⟨_, ⟨⟩, h⟩
        exact h

theorem map_eq_ok_iff {x : Except ε α} {f : α → β} {b : β} :
    x.map f = .ok b ↔ ∃ a, x = .ok a ∧ f a = b := by
  cases x <;> simp [Except.map]

theorem mapError_eq_ok_iff {ε' : Type} {x : Except ε α} {f : ε → ε'} {a : α} :
    x.mapError f = .ok a ↔ x = .ok a := by
  cases x <;> simp [Except.mapError]

theorem mapError_eq_error_iff {ε' : Type} {x : Except ε α} {f : ε → ε'} {e : ε'} :
    x.mapError f = .error e ↔ ∃ e', x = .error e' ∧ f e' = e := by
  cases x <;> simp [Except.mapError]

theorem mapM_eq_ok_iff {f : α → Except ε β} {as : List α} {bs : List β} :
    as.mapM f = .ok bs ↔ List.Forall₂ (fun a b => f a = .ok b) as bs := by
  induction as generalizing bs with
  | nil => simp [pure, Except.pure, eq_comm]
  | cons a as ih =>
      rw [List.mapM_cons, List.forall₂_cons_left_iff, bind_eq_ok_iff]
      constructor
      · rintro ⟨b, hb, h⟩
        obtain ⟨more, hmore, h⟩ := bind_eq_ok_iff.1 h
        cases h
        exact ⟨b, more, hb, ih.1 hmore, rfl⟩
      · rintro ⟨b, more, hb, hmore, rfl⟩
        exact ⟨b, hb, bind_eq_ok_iff.2 ⟨more, ih.2 hmore, rfl⟩⟩

theorem mapM_congr {f g : α → Except ε β} {as : List α} (h : ∀ a ∈ as, f a = g a) :
    as.mapM f = as.mapM g := by
  induction as with
  | nil => rfl
  | cons a as ih =>
      obtain ⟨ha, has⟩ := List.forall_mem_cons.1 h
      rw [List.mapM_cons, List.mapM_cons, ha, ih has]

/-! ## Errors -/

/-- If the computation fails, then `P` holds of its error. -/
def FailsOnly (P : ε → Prop) (x : Except ε α) : Prop := ∀ e, x = .error e → P e

variable {P : ε → Prop} {x : Except ε α}

theorem failsOnly_ok {a : α} : FailsOnly P (.ok a) := nofun

theorem failsOnly_pure {a : α} : FailsOnly P (pure a : Except ε α) := nofun

theorem failsOnly_error {e : ε} : FailsOnly P (.error e : Except ε α) ↔ P e :=
  ⟨fun h => h e rfl, fun h _ he => by cases he; exact h⟩

theorem FailsOnly.bind {f : α → Except ε β} (hx : FailsOnly P x)
    (hf : ∀ a, x = .ok a → FailsOnly P (f a)) : FailsOnly P (x >>= f) := by
  cases x with
  | error e => exact failsOnly_error.2 (hx e rfl)
  | ok a => exact hf a rfl

theorem FailsOnly.map {f : α → β} (hx : FailsOnly P x) : FailsOnly P (x.map f) :=
  hx.bind fun _ _ => failsOnly_pure

theorem FailsOnly.mapM {f : α → Except ε β} {as : List α} (hf : ∀ a ∈ as, FailsOnly P (f a)) :
    FailsOnly P (as.mapM f) := by
  induction as with
  | nil => exact failsOnly_pure
  | cons a as ih =>
      obtain ⟨ha, has⟩ := List.forall_mem_cons.1 hf
      rw [List.mapM_cons]
      exact ha.bind fun _ _ => (ih has).bind fun _ _ => failsOnly_pure

theorem FailsOnly.mono {Q : ε → Prop} (hx : FailsOnly P x) (h : ∀ e, P e → Q e) : FailsOnly Q x :=
  fun e he => h e (hx e he)

end MailTemplate
