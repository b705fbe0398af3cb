import MailTemplate.Proofs.Render.Limit
import Mathlib

/-!
# Errors end renders

Where instructions of a run fail, in whatever body, the render fails with their error (`Executes.failsWith`). The
instructions are reached with some bound on the rounds of loops; a run that keeps to the bound is the same with a
greater one (`execAll_extends`), so that the render gets there however the bound is raised.
-/

namespace MailTemplate

open Filter

namespace Run

variable {α β : Type} {m m' m'' : Machine} {a : α} {err : RuntimeError}

/-! ## More rounds -/

/-- A run that ends well is the same in the other way to take it, with a result in `Q`. -/
def Extends (Q : α → Prop) (x y : Run α) : Prop := ∀ m a m', x m = .ok a m' → Q a ∧ y m = .ok a m'

namespace Extends

variable {Q : α → Prop} {Q' : β → Prop} {x y : Run α} {f g : α → Run β}

theorem refl (hQ : ∀ a, Q a) (x : Run α) : Extends Q x x := fun _ a _ h => ⟨hQ a, h⟩

theorem bind (hxy : Extends Q x y) (hfg : ∀ a, Q a → Extends Q' (f a) (g a)) :
    Extends Q' (x >>= f) (y >>= g) := by
  intro m b m' h
  obtain ⟨a, mid, hx, hf⟩ := bind_eq_ok_iff.1 h
  obtain ⟨ha, hy⟩ := hxy m a mid hx
  obtain ⟨hb, hg⟩ := hfg a ha mid b m' hf
  exact ⟨hb, bind_eq_ok_iff.2 ⟨a, mid, hy, hg⟩⟩

theorem inScope (hxy : Extends Q x y) : Extends Q (inScope x) (inScope y) := by
  intro m a m' h
  obtain ⟨mid, hx, rfl⟩ := inScope_eq_ok_iff.1 h
  obtain ⟨ha, hy⟩ := hxy _ a mid hx
  exact ⟨ha, inScope_eq_ok_iff.2 ⟨mid, hy, rfl⟩⟩

theorem loop {Q : Unit → Prop} {test test' : Run Bool} {body body' : Run Unit} {rounds rounds' : Nat} (hQ : ∀ a, Q a)
    (htest : Extends (fun _ => True) test test') (hbody : Extends (fun _ => True) body body')
    (hrounds : rounds ≤ rounds') : Extends Q (loop test body rounds) (loop test' body' rounds') := by
  induction rounds generalizing rounds' with
  | zero =>
      intro m a m' h
      cases h
  | succ rounds ih =>
      obtain ⟨rounds', rfl⟩ := Nat.exists_eq_add_of_le' (Nat.one_le_of_lt hrounds)
      refine htest.bind fun b _ => ?_
      cases b with
      | false => exact refl hQ _
      | true => exact hbody.bind fun _ _ => ih (Nat.le_of_succ_le_succ hrounds)

end Extends

theorem interpreter_extends (o : RenderOptions) {rounds rounds' : Nat} (h : rounds ≤ rounds') :
    (interpreter o rounds).Related Extends (fun _ => True) (fun _ => True) (interpreter o rounds') where
  pure hQ m a m' h := by
    cases h
    exact ⟨hQ, rfl⟩
  bind := .bind
  write _ := .refl (fun _ => trivial) _
  demand _ _ _ _ := .refl (fun _ => trivial) _
  test _ _ _ _ := .refl (fun _ => trivial) _
  print _ _ _ _ := .refl (fun _ => trivial) _
  null := trivial
  declare _ _ _ _ _ := .refl (fun _ => trivial) _
  read _ _ _ _ := .refl (fun _ => trivial) _
  combine _ _ _ _ _ _ _ := .refl (fun _ => trivial) _
  assign _ _ _ _ _ _ := .refl (fun _ => trivial) _
  items _ _ _ _ := .refl (fun _ _ _ => trivial) _
  enter _ _ := .refl (fun _ => trivial) _
  take _ _ _ _ _ := .refl (fun _ => trivial) _
  inScope := .inScope
  loop line _ _ _ _ _ htest hbody :=
    .loop (fun _ => trivial) htest ((Extends.refl (fun _ => trivial) (tick o line)).bind fun _ _ => hbody) h

end Run

open Run

section Extends

variable {o : RenderOptions} {rounds rounds' : Nat}

theorem execAll_extends (h : rounds ≤ rounds') (is : List Instruction) :
    Extends (fun _ => True) (execAll o rounds is) (execAll o rounds' is) := by
  rw [execAll_eq_interpretAll, execAll_eq_interpretAll]
  exact interpretAll_related (interpreter_extends o h) fun _ _ => trivial

theorem Instruction.exec_extends (h : rounds ≤ rounds') (i : Instruction) :
    Extends (fun _ => True) (i.exec o rounds) (i.exec o rounds') := by
  rw [i.exec_eq_interpret, i.exec_eq_interpret]
  exact Instruction.interpret_related (interpreter_extends o h) fun _ _ => trivial

variable {line : Nat} {body : List Instruction}

theorem Run.forRound_extends (h : rounds ≤ rounds') {step : Option Change} :
    Extends (fun _ => True) (forRound o rounds line step body) (forRound o rounds' line step body) :=
  (Extends.refl (fun _ => trivial) _).bind fun _ _ =>
    (execAll_extends h body).inScope.bind fun _ _ => .refl (fun _ => trivial) _

theorem Run.forEachRound_extends (h : rounds ≤ rounds') {name : String} (item : Value) :
    Extends (fun _ => True) (forEachRound o rounds line name body item) (forEachRound o rounds' line name body item) :=
  (Extends.refl (fun _ => trivial) _).bind fun _ _ =>
    Extends.inScope ((Extends.refl (fun _ => trivial) _).bind fun _ _ => execAll_extends h body)

theorem Run.whileRound_extends (h : rounds ≤ rounds') :
    Extends (fun _ => True) (whileRound o rounds line body) (whileRound o rounds' line body) :=
  (Extends.refl (fun _ => trivial) _).bind fun _ _ => (execAll_extends h body).inScope

end Extends

/-! ## Runs that fail -/

namespace Run

variable {α β : Type} {m m' m'' : Machine} {a : α} {err : RuntimeError} {x : Nat → Run α} {f : Nat → α → Run β}

/-- With enough rounds, the run from the first state ends well in the second. -/
def Succeeds (x : Nat → Run α) (m : Machine) (a : α) (m' : Machine) : Prop := ∀ᶠ rounds in atTop, x rounds m = .ok a m'

/-- With enough rounds, the run from the state ends with the error. -/
def Fails (err : RuntimeError) (x : Nat → Run α) (m : Machine) : Prop :=
  ∀ᶠ rounds in atTop, ∃ m', x rounds m = .error (.error err) m'

theorem Succeeds.of_ok {x : Run α} (h : x m = .ok a m') : Succeeds (fun _ => x) m a m' := .of_forall fun _ => h

theorem Succeeds.of_extends {n : Nat} (h : x n m = .ok a m') (hx : ∀ k, n ≤ k → Extends (fun _ => True) (x n) (x k)) :
    Succeeds x m a m' := by
  filter_upwards [eventually_ge_atTop n] with k hk
  exact (hx k hk m a m' h).2

namespace Fails

theorem of_error {x : Run α} (h : x m = .error (.error err) m') : Fails err (fun _ => x) m :=
  .of_forall fun _ => ⟨m', h⟩

theorem bind_left (hx : Fails err x m) : Fails err (fun k => x k >>= f k) m := by
  filter_upwards [hx] with k hx
  obtain ⟨m', hx⟩ := hx
  exact ⟨m', bind_eq_error_iff.2 (.inl hx)⟩

theorem bind_right (hx : Succeeds x m a m') (hf : Fails err (f · a) m') : Fails err (fun k => x k >>= f k) m := by
  filter_upwards [hx, hf] with k hx hf
  obtain ⟨m'', hf⟩ := hf
  exact ⟨m'', bind_eq_error_iff.2 (.inr ⟨a, m', hx, hf⟩)⟩

theorem inScope (hx : Fails err x m.push) : Fails err (fun k => inScope (x k)) m := by
  filter_upwards [hx] with k hx
  obtain ⟨m', hx⟩ := hx
  exact ⟨_, inScope_eq_error_iff.2 ⟨m', hx, rfl⟩⟩

theorem forM {γ : Type} {f : Nat → γ → Run PUnit} {front back : List γ} {c : γ}
    (hfront : Succeeds (fun k => front.forM (f k)) m () m') (hc : Fails err (f · c) m') :
    Fails err (fun k => (front ++ c :: back).forM (f k)) m := by
  have happend (k : Nat) : (front ++ c :: back).forM (f k) = front.forM (f k) >>= fun _ => (c :: back).forM (f k) :=
    List.forM_append
  simp only [happend]
  exact .bind_right hfront hc.bind_left

end Fails

/-- After its first rounds, a loop goes on as a loop with the other rounds. -/
theorem Rounds.loop_eq {test : Run Bool} {body : Run Unit} (h : Rounds test body m m') : ∃ n, ∀ body',
    Extends (fun _ => True) body body' → ∀ k, loop test body' (n + k) m = loop test body' k m' := by
  induction h with
  | first => exact ⟨0, fun _ _ k => by rw [Nat.zero_add]⟩
  | @next m₁ m₂ m₃ m₄ htrue hok _ ih =>
      obtain ⟨n, ih⟩ := ih
      refine ⟨n + 1, fun body' hbody k => ?_⟩
      have hround : loop test body' (n + 1 + k) m₁ = loop test body' (n + k) m₃ := by
        rw [Nat.add_right_comm]
        change EStateM.bind test _ m₁ = _
        simp only [EStateM.bind, htrue]
        change EStateM.bind body' _ m₂ = _
        simp only [EStateM.bind, (hbody _ _ _ hok).2]
      exact hround.trans (ih body' hbody k)

theorem Fails.loop {test : Run Bool} {body : Nat → Run Unit} {n : Nat}
    (hbody : ∀ k, n ≤ k → Extends (fun _ => True) (body n) (body k)) (hrounds : Rounds test (body n) m m')
    (htest : test m' = .ok true m'') (hfails : Fails err body m'') : Fails err (fun k => loop test (body k) k) m := by
  obtain ⟨before, hloop⟩ := hrounds.loop_eq
  filter_upwards [eventually_ge_atTop n, eventually_gt_atTop before, hfails] with k hn hk hfails
  obtain ⟨last, hfails⟩ := hfails
  obtain ⟨left, rfl⟩ := Nat.exists_eq_add_of_lt hk
  refine ⟨last, (hloop _ (hbody _ hn) (left + 1)).trans ?_⟩
  exact bind_eq_error_iff.2 (.inr ⟨true, m'', htest, bind_eq_error_iff.2 (.inl hfails)⟩)

end Run

section Fails

variable {o : RenderOptions} {n line : Nat} {m m' : Machine} {body : List Instruction} {err : RuntimeError}

theorem Arms.Enters.fails {arms : Arms} (h : arms.Enters o line m body m')
    (hbody : Fails err (execAll o · body) m') : Fails err (arms.exec o · line) m := by
  induction h with
  | otherwise =>
      simp only [Arms.exec]
      exact hbody.inScope
  | here htest =>
      simp only [Arms.exec]
      exact .bind_right (.of_ok htest) hbody.inScope
  | next htest _ ih =>
      simp only [Arms.exec]
      exact .bind_right (.of_ok htest) (ih hbody)

theorem Instruction.Enters.fails {i : Instruction} (h : i.Enters o n m body m')
    (hbody : Fails err (execAll o · body) m') : Fails err (i.exec o ·) m := by
  cases h with
  | choose harms =>
      simp only [Instruction.exec]
      exact harms.fails hbody
  | @forLoop line _ _ step _ _ _ _ _ m₄ hinit hrounds htest htick =>
      simp only [Instruction.exec_forLoop]
      have hround : Fails err (forRound o · line step body) _ :=
        .bind_right (.of_ok htick) hbody.inScope.bind_left
      exact .inScope (.bind_right (.of_ok hinit) (.loop (fun k hk => forRound_extends hk) hrounds htest hround))
  | @forEach line name _ _ _ _ item _ m₂ _ _ front back heval hitems hfront htick hdeclare =>
      simp only [Instruction.exec_forEach]
      have hround : Fails err (forEachRound o · line name body item) m₂ :=
        .bind_right (.of_ok htick) (.inScope (.bind_right (.of_ok hdeclare) hbody))
      refine .bind_right (.of_ok heval) ?_
      simp only [hitems]
      refine .forM (.of_extends hfront fun k hk => ?_) hround
      exact (interpreter_extends o hk).forM fun item _ => forEachRound_extends hk item
  | whileLoop hrounds htest htick =>
      simp only [Instruction.exec_whileLoop]
      exact .loop (fun k hk => whileRound_extends hk) hrounds htest (.bind_right (.of_ok htick) hbody.inScope)
  | scope =>
      simp only [Instruction.exec]
      exact hbody.inScope

theorem Executes.fails {p : Program} {model : Value} {depth : Nat} {is : List Instruction}
    (h : Executes o n p model depth is m) (his : Fails err (execAll o · is) m) :
    Fails err (execAll o · p.instructions) (Program.initial model) := by
  induction h with
  | start => exact his
  | next _ hok ih =>
      refine ih ?_
      simp only [execAll]
      exact .bind_right (.of_extends hok fun k hk => Instruction.exec_extends hk _) his
  | enter _ henters ih =>
      refine ih ?_
      simp only [execAll]
      exact (henters.fails his).bind_left

end Fails

/-! ## Renders that fail -/

namespace Program

variable {o : RenderOptions} {rounds rounds' : Nat} {p : Program} {model : Value} {err : RuntimeError}

/-- However often loops may test, renders that finish do so in the same way. -/
theorem outcome_unique (hends : p.outcome o rounds model ≠ .error .unfinished)
    (hends' : p.outcome o rounds' model ≠ .error .unfinished) :
    p.outcome o rounds model = p.outcome o rounds' model := by
  obtain ⟨strict, limit⟩ := o
  obtain ⟨n, hn, hn', hlimit⟩ : ∃ n, (p.journal limit rounds model).entries ≤ n ∧
      (p.journal limit rounds' model).entries ≤ n ∧ (limit = none ∨ limit = some n) := by
    cases limit with
    | none => exact ⟨_, Nat.le_max_left .., Nat.le_max_right .., .inl rfl⟩
    | some n => exact ⟨n, p.entries_le n rounds model, p.entries_le n rounds' model, .inr rfl⟩
  exact (outcome_eq_of_entries_le hends hn hlimit (.inr rfl) (Nat.lt_succ_self n)).symm.trans
    (outcome_eq_of_entries_le hends' hn' hlimit (.inr rfl) (Nat.lt_succ_self n))

/-- The render ends with the error as soon as its loops may test often enough, and never with anything else. -/
structure FailsWith (p : Program) (o : RenderOptions) (model : Value) (err : RuntimeError) : Prop where
  ends : ∃ n, ∀ rounds, n ≤ rounds → p.outcome o rounds model = .error (.error err)
  only : ∀ rounds, p.outcome o rounds model = .error (.error err) ∨ p.outcome o rounds model = .error .unfinished
  limited : ∀ n, o.limit = some n → p.render o model = .error (.error err)

theorem failsWith_of_fails (h : Fails err (execAll o · p.instructions) (initial model)) :
    p.FailsWith o model err := by
  have hends : ∃ n, ∀ rounds, n ≤ rounds → p.outcome o rounds model = .error (.error err) := by
    obtain ⟨n, h⟩ := eventually_atTop.1 h
    refine ⟨n, fun rounds hrounds => ?_⟩
    obtain ⟨m, herror⟩ := h rounds hrounds
    simp only [outcome, run, herror]
  obtain ⟨n, hn⟩ := hends
  have honly (rounds : Nat) (hfinished : p.outcome o rounds model ≠ .error .unfinished) :
      p.outcome o rounds model = .error (.error err) :=
    (outcome_unique hfinished (by simp [hn n le_rfl])).trans (hn n le_rfl)
  refine ⟨⟨n, hn⟩, fun rounds => ?_, fun limit hlimit => ?_⟩
  · by_cases hfinished : p.outcome o rounds model = .error .unfinished
    · exact .inr hfinished
    · exact .inl (honly rounds hfinished)
  · obtain ⟨strict, _⟩ := o
    cases hlimit
    exact honly _ (outcome_limited_ne_unfinished (Nat.lt_succ_self limit))

end Program

theorem Executes.failsWith {o : RenderOptions} {rounds depth : Nat} {p : Program} {model : Value} {m : Machine}
    {is : List Instruction} {err : RuntimeError} (h : Executes o rounds p model depth is m)
    (his : Fails err (execAll o · is) m) : p.FailsWith o model err :=
  Program.failsWith_of_fails (h.fails his)

end MailTemplate
