import MailTemplate.Environment
import Mathlib

/-!
# What a render does to its variables

Declarations and assignments change the local scopes alone: a declaration adds a name to the innermost
of them (`declare_atop`), and an assignment changes the value of one name (`assign_atop`). The scope of
the model stays what it is.
-/

namespace MailTemplate

/-! ## Scopes -/

namespace Scope

variable {s s' s'' : Scope} {name x : String} {v w : Value}

/-- The names that a scope binds, the last one declared first. -/
def names (s : Scope) : List String := s.map Prod.fst

@[simp]
theorem names_nil : names [] = [] := rfl

@[simp]
theorem names_cons : names ((name, v) :: s) = name :: s.names := rfl

theorem binds_iff : s.binds x = true ↔ x ∈ s.names := by
  unfold binds
  induction s with
  | nil => simp
  | cons b s ih =>
      obtain ⟨y, w⟩ := b
      by_cases hx : x = y
      · simp [hx]
      · have hbeq : (x == y) = false := beq_eq_false_iff_ne.2 hx
        simp [List.lookup_cons, hbeq, hx, ih]

theorem mem_names_of_lookup (h : s.lookup x = some v) : x ∈ s.names := by
  rw [← binds_iff, binds, h]
  rfl

@[simp]
theorem names_set : (s.set name v).names = s.names := by
  simp only [names, set, List.map_map]
  refine List.map_congr_left fun b _ => ?_
  simp only [Function.comp_apply]
  split <;> rfl

theorem lookup_set_of_ne (hx : x ≠ name) : (s.set name v).lookup x = s.lookup x := by
  induction s with
  | nil => rfl
  | cons b s ih =>
      obtain ⟨y, w⟩ := b
      simp only [set, List.map_cons] at ih ⊢
      split
      · rename_i hy
        have hbeq : (x == y) = false := by simpa [beq_iff_eq.1 hy] using hx
        rw [List.lookup_cons, List.lookup_cons, hbeq, ih]
      · rw [List.lookup_cons, List.lookup_cons, ih]

/-- What becomes of a scope when `declared` are declared in it one after another, and of its variables
at most `assigned` get other values. -/
structure Evolves (declared assigned : List String) (s s' : Scope) : Prop where
  names : s'.names = declared.reverse ++ s.names
  fresh : ∀ x ∈ declared, x ∉ s.names
  values : ∀ x v, x ∉ assigned → s.lookup x = some v → s'.lookup x = some v

variable {declared declared' assigned assigned' : List String}

theorem Evolves.refl (assigned : List String) (s : Scope) : Evolves [] assigned s s :=
  ⟨rfl, nofun, fun _ _ _ h => h⟩

theorem Evolves.trans (h : Evolves declared assigned s s') (h' : Evolves declared' assigned' s' s'') :
    Evolves (declared ++ declared') (assigned ++ assigned') s s'' := by
  refine ⟨?_, ?_, ?_⟩
  · rw [h'.names, h.names, List.reverse_append, List.append_assoc]
  · intro x hx
    rcases List.mem_append.1 hx with hx | hx
    · exact h.fresh x hx
    · intro hmem
      refine h'.fresh x hx ?_
      rw [h.names]
      exact List.mem_append_right _ hmem
  · intro x v hx hv
    rw [List.mem_append, not_or] at hx
    exact h'.values x v hx.2 (h.values x v hx.1 hv)

theorem Evolves.mono (h : Evolves declared assigned s s') (hsub : assigned ⊆ assigned') :
    Evolves declared assigned' s s' :=
  ⟨h.names, h.fresh, fun x v hx => h.values x v fun hmem => hx (hsub hmem)⟩

theorem evolves_declare (h : s.binds name = false) : Evolves [name] [] s ((name, v) :: s) := by
  have hname : name ∉ s.names := by
    rw [← binds_iff, h]
    exact Bool.false_ne_true
  refine ⟨rfl, ?_, ?_⟩
  · intro x hx
    rwa [List.mem_singleton.1 hx]
  · intro x w _ hw
    have hx : x ≠ name := by
      rintro rfl
      exact hname (mem_names_of_lookup hw)
    rwa [List.lookup_cons, beq_eq_false_iff_ne.2 hx]

theorem evolves_set : Evolves [] [name] s (s.set name v) := by
  refine ⟨names_set, nofun, ?_⟩
  intro x w hx hw
  rwa [lookup_set_of_ne (by simpa using hx)]

end Scope

/-! ## Local scopes -/

/-- What becomes of local scopes: only the innermost one gets further names. -/
inductive LocalsEvolve (declared assigned : List String) : List Scope → List Scope → Prop
  | mk {s s' ss ss'} : s.Evolves declared assigned s' →
      List.Forall₂ (Scope.Evolves [] assigned) ss ss' →
      LocalsEvolve declared assigned (s :: ss) (s' :: ss')

theorem forall₂_evolves_trans {assigned assigned' : List String} {ss ss' ss'' : List Scope}
    (h : List.Forall₂ (Scope.Evolves [] assigned) ss ss')
    (h' : List.Forall₂ (Scope.Evolves [] assigned') ss' ss'') :
    List.Forall₂ (Scope.Evolves [] (assigned ++ assigned')) ss ss'' := by
  induction h generalizing ss'' with
  | nil =>
      cases h'
      exact .nil
  | cons hs _ ih =>
      obtain _ | ⟨hs', hss'⟩ := h'
      exact .cons (hs.trans hs') (ih hss')

namespace LocalsEvolve

variable {declared declared' assigned assigned' : List String} {locals locals' locals'' : List Scope}

theorem refl (h : locals ≠ []) : LocalsEvolve [] assigned locals locals := by
  cases locals with
  | nil => exact absurd rfl h
  | cons s ss => exact ⟨.refl _ s, List.forall₂_same.2 fun t _ => .refl _ t⟩

theorem trans (h : LocalsEvolve declared assigned locals locals')
    (h' : LocalsEvolve declared' assigned' locals' locals'') :
    LocalsEvolve (declared ++ declared') (assigned ++ assigned') locals locals'' := by
  obtain ⟨hs, hss⟩ := h
  obtain ⟨hs', hss'⟩ := h'
  exact ⟨hs.trans hs', forall₂_evolves_trans hss hss'⟩

theorem mono (h : LocalsEvolve declared assigned locals locals') (hsub : assigned ⊆ assigned') :
    LocalsEvolve declared assigned' locals locals' := by
  obtain ⟨hs, hss⟩ := h
  exact ⟨hs.mono hsub, hss.imp fun _ _ ht => ht.mono hsub⟩

theorem length_eq (h : LocalsEvolve declared assigned locals locals') : locals'.length = locals.length := by
  obtain ⟨_, hss⟩ := h
  simp [hss.length_eq]

theorem ne_nil (h : LocalsEvolve declared assigned locals locals') : locals' ≠ [] := by
  obtain ⟨_, _⟩ := h
  exact List.cons_ne_nil _ _

end LocalsEvolve

/-! ## Environments -/

namespace Environment

variable {model : Value} {env : Environment} {locals : List Scope} {name : String} {v : Value}

/-- Local scopes over the scope of the model. -/
def atop (model : Value) (locals : List Scope) : Environment := ⟨model, locals ++ [[(modelName, model)]]⟩

@[simp]
theorem model_atop : (atop model locals).model = model := rfl

@[simp]
theorem scopes_atop : (atop model locals).scopes = locals ++ [[(modelName, model)]] := rfl

theorem push_atop : (atop model locals).push = atop model ([] :: locals) := rfl

theorem pop_atop {s : Scope} (h : locals ≠ []) : (atop model (s :: locals)).pop = atop model locals := by
  have := List.length_pos_iff.2 h
  rw [pop, if_pos]
  · rfl
  · simp only [atop, List.length_append, List.length_cons]
    omega

theorem declare_atop (h : locals ≠ []) (hok : (atop model locals).declare name v = .ok env) :
    ∃ locals', env = atop model locals' ∧ LocalsEvolve [name] [] locals locals' := by
  obtain ⟨s, ss, rfl⟩ := List.exists_cons_of_ne_nil h
  simp only [declare, atop, List.cons_append] at hok
  split at hok
  · cases hok
  · split at hok
    · cases hok
    · rename_i hbinds
      cases hok
      exact ⟨((name, v) :: s) :: ss, rfl, Scope.evolves_declare (Bool.not_eq_true _ ▸ hbinds),
        List.forall₂_same.2 fun t _ => .refl _ t⟩

/-- The local scopes with another value for the innermost variable of a name. -/
def assignLocals (name : String) (v : Value) : List Scope → Option (List Scope)
  | [] => none
  | s :: ss => if s.binds name then some (s.set name v :: ss) else (assignLocals name v ss).map (s :: ·)

theorem assignIn_append (base : Scope) :
    assignIn name v (locals ++ [base]) = (assignLocals name v locals).map (· ++ [base]) := by
  induction locals with
  | nil => rfl
  | cons s ss ih =>
      rw [List.cons_append, assignIn.eq_3 _ _ _ _ (by simp), assignLocals, ih]
      split
      · rfl
      · cases assignLocals name v ss <;> rfl

theorem assign_atop_eq (model : Value) (locals : List Scope) (name : String) (v : Value) :
    (atop model locals).assign name v =
      match assignLocals name v locals with
      | some locals' => .ok (atop model locals')
      | none => .error (if name = modelName || (model.member? name).isSome then .modelMember name
          else .undeclared name) := by
  rw [assign, scopes_atop, assignIn_append]
  cases assignLocals name v locals with
  | some locals' => rfl
  | none => exact (apply_ite Except.error _ _ _).symm

theorem assignLocals_scopes {locals' : List Scope} (h : assignLocals name v locals = some locals') :
    List.Forall₂ (Scope.Evolves [] [name]) locals locals' := by
  induction locals generalizing locals' with
  | nil => cases h
  | cons s ss ih =>
      rw [assignLocals] at h
      split at h
      · cases h
        exact .cons Scope.evolves_set (List.forall₂_same.2 fun t _ => .refl _ t)
      · obtain ⟨ss', hss', rfl⟩ := Option.map_eq_some_iff.1 h
        exact .cons (.refl _ s) (ih hss')

theorem assignLocals_evolve {locals' : List Scope} (h : locals ≠ [])
    (hassign : assignLocals name v locals = some locals') : LocalsEvolve [] [name] locals locals' := by
  cases assignLocals_scopes hassign with
  | nil => exact absurd rfl h
  | cons hs hss => exact ⟨hs, hss⟩

theorem assign_atop (h : locals ≠ []) (hok : (atop model locals).assign name v = .ok env) :
    ∃ locals', env = atop model locals' ∧ LocalsEvolve [] [name] locals locals' := by
  rw [assign_atop_eq] at hok
  cases hassign : assignLocals name v locals with
  | none =>
      rw [hassign] at hok
      cases hok
  | some locals' =>
      rw [hassign] at hok
      cases hok
      exact ⟨locals', rfl, assignLocals_evolve h hassign⟩

end Environment

end MailTemplate
