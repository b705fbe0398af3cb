import MailTemplate.Proofs.Results
import MailTemplate.SyntaxError

/-!
# Results on other lines

`relocate f g` changes the lines of an error by `f` and a value by `g`. What is put together of parts that
are on other lines is on other lines itself.
-/

namespace MailTemplate

variable (f : Nat → Nat)

def SyntaxCause.renumber : SyntaxCause → SyntaxCause
  | unterminatedBlock openedAt => unterminatedBlock (f openedAt)
  | textInCodeBlock text cause => textInCodeBlock text cause.renumber
  | cause => cause

def SyntaxError.renumber (e : SyntaxError) : SyntaxError := ⟨f e.line, e.cause.renumber f⟩

variable {α β γ δ : Type}

/-- The same result for other lines. -/
def relocate (g : α → β) : Except SyntaxError α → Except SyntaxError β
  | .ok a => .ok (g a)
  | .error e => .error (e.renumber f)

variable {f} {g : α → β} {h : γ → δ} {x : Except SyntaxError α}

theorem relocate_eq_ok_iff {b : β} : relocate f g x = .ok b ↔ ∃ a, x = .ok a ∧ g a = b := by
  cases x <;> simp [relocate]

theorem relocate_bind {k : α → Except SyntaxError γ} {k' : β → Except SyntaxError δ}
    (hk : ∀ a, x = .ok a → k' (g a) = relocate f h (k a)) :
    relocate f g x >>= k' = relocate f h (x >>= k) := by
  cases x with
  | error e => rfl
  | ok a => exact hk a rfl

theorem relocate_map {k : α → γ} {k' : β → δ} (hk : ∀ a, k' (g a) = h (k a)) :
    (relocate f g x).map k' = relocate f h (x.map k) := by
  cases x with
  | error e => rfl
  | ok a => exact congrArg Except.ok (hk a)

theorem relocate_mapM {as : List α} {bs : List β} {F : α → Except SyntaxError γ}
    {F' : β → Except SyntaxError δ} (has : bs = as.map g) (hF : ∀ a ∈ as, F' (g a) = relocate f h (F a)) :
    bs.mapM F' = relocate f (List.map h) (as.mapM F) := by
  subst has
  induction as with
  | nil => rfl
  | cons a as ih =>
      obtain ⟨ha, has⟩ := List.forall_mem_cons.1 hF
      rw [List.map_cons, List.mapM_cons, List.mapM_cons, ha, ih has]
      refine relocate_bind fun c _ => ?_
      exact relocate_bind fun cs _ => rfl

end MailTemplate
