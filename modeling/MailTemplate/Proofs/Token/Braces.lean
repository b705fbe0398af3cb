import MailTemplate.Token.Basic
import Mathlib.Data.List.Infix

/-!
# Braces among tokens

Which braces of some tokens are closed. Tokens stay open behind some open braces when none of their
closing braces closes the outermost of these, and they are balanced when each brace is opened before
it is closed, and closed in the end.
-/

namespace MailTemplate

namespace Token

def opens : Token → Bool
  | symbol .openBrace => true
  | _ => false

def closes : Token → Bool
  | symbol .closeBrace => true
  | _ => false

theorem eq_of_closes {t : Token} (h : t.closes = true) : t = symbol .closeBrace := by
  unfold closes at h
  split at h
  · rfl
  · cases h

theorem opens_eq_false {t : Token} (h : t ≠ symbol .openBrace) : t.opens = false := by
  unfold opens
  split <;> simp_all

theorem closes_eq_false {t : Token} (h : t ≠ symbol .closeBrace) : t.closes = false := by
  rw [← Bool.not_eq_true]
  exact fun hcloses => h (eq_of_closes hcloses)

end Token

/-- How many braces some tokens open. -/
def openings (ts : List Token) : Nat := ts.countP Token.opens

/-- How many braces some tokens close. -/
def closings (ts : List Token) : Nat := ts.countP Token.closes

section Counts

variable {t : Token} {ts us : List Token}

@[simp]
theorem openings_nil : openings [] = 0 := rfl

@[simp]
theorem closings_nil : closings [] = 0 := rfl

theorem openings_cons : openings (t :: ts) = openings ts + if t.opens then 1 else 0 :=
  List.countP_cons

theorem closings_cons : closings (t :: ts) = closings ts + if t.closes then 1 else 0 :=
  List.countP_cons

@[simp]
theorem openings_append : openings (ts ++ us) = openings ts + openings us := List.countP_append

@[simp]
theorem closings_append : closings (ts ++ us) = closings ts + closings us := List.countP_append

end Counts

/-- With `depth` braces open before the tokens, the outermost is open behind each of them. -/
def StaysOpen (depth : Nat) (ts : List Token) : Prop :=
  ∀ us, us <+: ts → closings us < depth + openings us

/-- How many braces are open behind some tokens. -/
def depthBehind (depth : Nat) (ts : List Token) : Nat := depth + openings ts - closings ts

/-- Every prefix opens as many braces as it closes or more, and the whole as many. -/
structure Balanced (ts : List Token) : Prop where
  prefixes : ∀ us, us <+: ts → closings us ≤ openings us
  total : closings ts = openings ts

section Nesting

variable {depth : Nat} {t : Token} {ts us : List Token}

@[simp]
theorem depthBehind_nil : depthBehind depth [] = depth := rfl

theorem depthBehind_singleton (hopen : t ≠ .symbol .openBrace) (hclose : t ≠ .symbol .closeBrace) :
    depthBehind depth [t] = depth := by
  simp [depthBehind, openings_cons, closings_cons, Token.opens_eq_false hopen,
    Token.closes_eq_false hclose]

theorem balanced_nil : Balanced [] := by
  refine ⟨?_, rfl⟩
  intro us hus
  rw [List.prefix_nil.1 hus]
  exact Nat.le_refl 0

theorem staysOpen_nil : StaysOpen depth [] ↔ 0 < depth := by
  simp [StaysOpen, List.prefix_nil]

theorem StaysOpen.pos (h : StaysOpen depth ts) : 0 < depth := by
  simpa using h [] List.nil_prefix

theorem StaysOpen.depthBehind_pos (h : StaysOpen depth ts) : 0 < depthBehind depth ts := by
  have := h ts (List.prefix_refl ts)
  unfold depthBehind
  omega

theorem StaysOpen.depthBehind_append (h : StaysOpen depth ts) :
    depthBehind depth (ts ++ us) = depthBehind (depthBehind depth ts) us := by
  have := h ts (List.prefix_refl ts)
  simp only [depthBehind, openings_append, closings_append]
  omega

theorem staysOpen_append :
    StaysOpen depth (ts ++ us) ↔ StaysOpen depth ts ∧ StaysOpen (depthBehind depth ts) us := by
  constructor
  · intro h
    have hts : StaysOpen depth ts := fun vs hvs => h vs (hvs.trans (List.prefix_append ts us))
    refine ⟨hts, fun vs hvs => ?_⟩
    have hboth := h (ts ++ vs) ((List.prefix_append_right_inj ts).2 hvs)
    have := hts ts (List.prefix_refl ts)
    simp only [depthBehind, openings_append, closings_append] at hboth ⊢
    omega
  · rintro ⟨hts, hus⟩ vs hvs
    rcases List.prefix_or_prefix_of_prefix hvs (List.prefix_append ts us) with h | ⟨ws, rfl⟩
    · exact hts vs h
    · have := hts ts (List.prefix_refl ts)
      have := hus ws ((List.prefix_append_right_inj ts).1 hvs)
      simp only [depthBehind, openings_append, closings_append] at *
      omega

theorem staysOpen_cons :
    StaysOpen depth (t :: ts) ↔ StaysOpen depth [t] ∧ StaysOpen (depthBehind depth [t]) ts :=
  @staysOpen_append depth [t] ts

/-- The outermost brace stays open behind a token that does not close it. -/
theorem staysOpen_singleton :
    StaysOpen depth [t] ↔ 0 < depth ∧ ¬ (t.closes = true ∧ depth ≤ 1) := by
  constructor
  · intro h
    refine ⟨h.pos, ?_⟩
    rintro ⟨hcloses, hle⟩
    obtain rfl := Token.eq_of_closes hcloses
    have := h.depthBehind_pos
    simp [depthBehind, openings_cons, closings_cons, Token.opens, Token.closes] at this
    omega
  · rintro ⟨hpos, hcloses⟩ us hus
    rcases List.prefix_cons_iff.1 hus with rfl | ⟨vs, rfl, hvs⟩
    · simpa using hpos
    · rw [List.prefix_nil.1 hvs]
      simp only [closings_cons, closings_nil, openings_cons, openings_nil]
      split
      · simp_all
        omega
      · omega

/-- What closes the one brace before it is balanced. -/
theorem StaysOpen.balanced (h : StaysOpen 1 ts) (hone : depthBehind 1 ts = 1) : Balanced ts := by
  have := h ts (List.prefix_refl ts)
  unfold depthBehind at hone
  refine ⟨fun us hus => ?_, by omega⟩
  have := h us hus
  omega

/-- What is balanced closes no brace before it. -/
theorem Balanced.staysOpen (h : Balanced ts) (hdepth : 0 < depth) : StaysOpen depth ts := by
  intro us hus
  have := h.prefixes us hus
  omega

theorem Balanced.depthBehind_eq (h : Balanced ts) (depth : Nat) : depthBehind depth ts = depth := by
  have := h.total
  unfold depthBehind
  omega

theorem Balanced.append (hts : Balanced ts) (hus : Balanced us) : Balanced (ts ++ us) := by
  have hopen := hts.staysOpen Nat.one_pos
  refine StaysOpen.balanced (staysOpen_append.2 ⟨hopen, ?_⟩) ?_
  · rw [hts.depthBehind_eq]
    exact hus.staysOpen Nat.one_pos
  · rw [hopen.depthBehind_append, hts.depthBehind_eq, hus.depthBehind_eq]

theorem balanced_singleton (hopen : t.opens = false) (hclose : t.closes = false) : Balanced [t] := by
  refine StaysOpen.balanced (staysOpen_singleton.2 ⟨Nat.one_pos, by simp [hclose]⟩) ?_
  simp [depthBehind, openings_cons, closings_cons, hopen, hclose]

theorem Balanced.braced (h : Balanced ts) :
    Balanced (.symbol .openBrace :: ts ++ [.symbol .closeBrace]) := by
  have hopening : StaysOpen 1 [.symbol .openBrace] := staysOpen_singleton.2 ⟨Nat.one_pos, by simp [Token.closes]⟩
  have hclosing : StaysOpen 2 [.symbol .closeBrace] := staysOpen_singleton.2 ⟨Nat.two_pos, by simp⟩
  have htwo : depthBehind 1 [.symbol .openBrace] = 2 := rfl
  refine StaysOpen.balanced ?_ ?_
  · rw [List.cons_append, staysOpen_cons, htwo, staysOpen_append, h.depthBehind_eq]
    exact ⟨hopening, h.staysOpen Nat.two_pos, hclosing⟩
  · have := h.total
    simp [depthBehind, openings_cons, closings_cons, Token.opens, Token.closes]
    omega

end Nesting

end MailTemplate
