import MailTemplate.Proofs.Render.Journal

/-!
# Limits on iterations

A render with a limit ends, and enters at most as many loop bodies as the limit says (`render_limited_ends`). It
does what the render without a limit does if that one enters no more bodies, and fails otherwise
(`render_limited`).
-/

namespace MailTemplate

namespace Journaled

variable {α β : Type} {Q : α → Prop} {Q' : β → Prop} {x y : Journaled α} {f g : α → Journaled β}
  {j : Journal} {limit : Option Nat} {n line : Nat}

/-! ## Steps that enter no body -/

/-- The run comes to an end, and enters no loop body. -/
structure Steady (x : Journaled α) : Prop where
  ok {j a j'} : x j = .ok a j' → j'.entries = j.entries
  error {j e j'} : x j = .error e j' → j'.entries = j.entries ∧ e ≠ .unfinished

namespace Steady

theorem pure (a : α) : Steady (pure a : Journaled α) where
  ok h := by cases h; rfl
  error h := by cases h

theorem fail (line : Nat) (cause : FaultCause) : Steady (Journaled.fail line cause : Journaled α) where
  ok h := by cases h
  error h := by cases h; exact ⟨rfl, nofun⟩

theorem get : Steady (get : Journaled Journal) where
  ok h := by cases h; rfl
  error h := by cases h

theorem bind (hx : Steady x) (hf : ∀ a, Steady (f a)) : Steady (x >>= f) where
  ok h := by
    obtain ⟨a, mid, hok, h⟩ := Run.bind_eq_ok_iff.1 h
    exact ((hf a).ok h).trans (hx.ok hok)
  error h := by
    rcases Run.bind_eq_error_iff.1 h with h | ⟨a, mid, hok, h⟩
    · exact hx.error h
    · obtain ⟨hentries, he⟩ := (hf a).error h
      exact ⟨hentries.trans (hx.ok hok), he⟩

theorem record {e : Event} (he : e.isEntry = false) : Steady (Journaled.record e) where
  ok h := by
    cases h
    simp [he]
  error h := by cases h

theorem conclude (line : Nat) (r : Environment → Appraisal α) : Steady (Journaled.conclude line r) where
  ok h := by
    simp only [Journaled.conclude] at h
    split at h <;> cases h
    simp [Event.isEntry]
  error h := by
    simp only [Journaled.conclude] at h
    split at h <;> cases h
    simp [Event.isEntry]

theorem update (line : Nat) (g : Environment → Except FaultCause Environment) :
    Steady (Journaled.update line g) where
  ok h := by
    unfold Journaled.update at h
    split at h <;> cases h
    exact Journal.entries_become
  error h := by
    unfold Journaled.update at h
    split at h <;> cases h
    exact ⟨rfl, nofun⟩

end Steady

/-- Interpreters that differ by their limit and by how often loops may test agree as far as they do on entering
a body, on scopes and on loops. -/
theorem interpreter_related {R : {α : Type} → (α → Prop) → Journaled α → Journaled α → Prop}
    {limit limit' : Option Nat} {rounds rounds' : Nat}
    (steady : ∀ {α : Type} {Q : α → Prop} {x : Journaled α}, Steady x → (∀ a, Q a) → R Q x x)
    (pure : ∀ {α : Type} {Q : α → Prop} {a : α}, Q a → R Q (pure a) (pure a))
    (bind : ∀ {α β : Type} {Q : α → Prop} {Q' : β → Prop} {x y : Journaled α} {f g : α → Journaled β},
      R Q x y → (∀ a, Q a → R Q' (f a) (g a)) → R Q' (x >>= f) (y >>= g))
    (enter : ∀ line, R (fun _ => True) (enter limit line) (enter limit' line))
    (inScope : ∀ {x y : Journaled Unit}, R (fun _ => True) x y →
      R (fun _ => True) (inScope x) (inScope y))
    (loop : ∀ line {test test' : Journaled Bool} {body body' : Journaled Unit},
      R (fun _ => True) test test' → R (fun _ => True) body body' →
      R (fun _ => True) (loop limit line test body rounds) (loop limit' line test' body' rounds')) :
    (interpreter limit rounds).Related R (fun _ => True) (fun _ => True) (interpreter limit' rounds') where
  pure := pure
  bind := bind
  write _ := steady (.record rfl) fun _ => trivial
  demand line e _ _ := steady (.conclude line (e.appraise · line .required)) fun _ => trivial
  test line e _ _ := steady ((Steady.conclude line (e.appraise · line .optional)).bind fun _ => .pure _)
    fun _ => trivial
  print line v _ _ := by
    simp only [interpreter]
    split
    · exact steady (.fail _ _) fun _ => trivial
    · exact steady (.record rfl) fun _ => trivial
  null := trivial
  declare _ _ _ _ _ := steady ((Steady.update _ _).bind fun _ => .record rfl) fun _ => trivial
  read line name _ _ := by
    refine steady (Steady.get.bind fun j => ?_) fun _ => trivial
    split
    · exact .fail _ _
    · exact .pure _
  combine line op l r _ _ _ := steady (.conclude line fun _ => Application.appraise line ⟨op, l, r⟩)
    fun _ => trivial
  assign _ _ _ _ _ _ := steady ((Steady.update _ _).bind fun _ => .record rfl) fun _ => trivial
  items line v _ _ := by
    simp only [interpreter]
    split
    · exact steady (.fail _ _) fun _ _ _ => trivial
    · exact steady ((Steady.record rfl).bind fun _ => .pure _) fun _ _ _ => trivial
  enter line _ := enter line
  take _ _ _ _ _ := steady ((Steady.update _ _).bind fun _ => .record rfl) fun _ => trivial
  inScope := inScope
  loop line _ _ _ _ _ := loop line

/-! ## Entering a body -/

theorem enter_bind_some {f : Unit → Journaled β} : (enter (some n) line >>= f) j =
    if j.entries < n then f () (j.note [.entered line])
    else .error (.error ⟨line, .iterationLimit n⟩) j := by
  change EStateM.bind (enter (some n) line) f j = _
  by_cases hlt : j.entries < n <;> simp [EStateM.bind, enter, hlt]

theorem entries_entered (j : Journal) (line : Nat) : (j.note [.entered line]).entries = j.entries + 1 :=
  Journal.entries_note

theorem entries_of_enter {j' : Journal} (h : enter limit line j = .ok () j') :
    j'.entries = j.entries + 1 := by
  unfold enter at h
  split at h
  · split at h <;> cases h
    exact entries_entered j line
  · cases h
    exact entries_entered j line

theorem loop_succ {test : Journaled Bool} {body : Journaled Unit} {rounds : Nat} :
    loop limit line test body (rounds + 1) = test >>= fun b =>
      if b then enter limit line >>= fun _ => body >>= fun _ => loop limit line test body rounds
      else pure () := rfl

/-! ## Runs with a limit -/

/-- From the journal on, the run ends with at most `n` entries; it is unfinished only where loops may test no
more often than that. -/
inductive Capped (n rounds : Nat) (Q : α → Prop) (j : Journal) : EStateM.Result Halt Journal α → Prop
  | ok {a j'} : Q a → j.entries ≤ j'.entries → j'.entries ≤ n → Capped n rounds Q j (.ok a j')
  | error {e j'} : j'.entries ≤ n → (e = .unfinished → rounds ≤ n) → Capped n rounds Q j (.error e j')

namespace Capped

variable {rounds : Nat} {j' : Journal} {r : EStateM.Result Halt Journal α}

theorem of_le (hr : Capped n rounds Q j' r) (hle : j.entries ≤ j'.entries) : Capped n rounds Q j r := by
  cases hr with
  | ok ha hle' hn => exact .ok ha (hle.trans hle') hn
  | error hn he => exact .error hn he

theorem bind (hx : Capped n rounds Q j (x j))
    (hf : ∀ a j', Q a → j.entries ≤ j'.entries → j'.entries ≤ n → Capped n rounds Q' j' (f a j')) :
    Capped n rounds Q' j ((x >>= f) j) := by
  change Capped n rounds Q' j (EStateM.bind x f j)
  unfold EStateM.bind
  generalize x j = r at hx ⊢
  cases hx with
  | ok ha hle hn => exact (hf _ _ ha hle hn).of_le hle
  | error hn he => exact .error hn he

end Capped

/-- The run keeps to the limit `n`. -/
def Limited (n rounds : Nat) (Q : α → Prop) (x : Journaled α) : Prop :=
  ∀ j, j.entries ≤ n → Capped n rounds Q j (x j)

namespace Limited

variable {rounds : Nat}

theorem of_steady (hx : Steady x) (hQ : ∀ a, Q a) : Limited n rounds Q x := by
  intro j hj
  cases hr : x j with
  | ok a j' =>
      have hentries := hx.ok hr
      exact .ok (hQ a) hentries.ge (hentries.trans_le hj)
  | error e j' =>
      obtain ⟨hentries, he⟩ := hx.error hr
      exact .error (hentries.trans_le hj) fun h => absurd h he

theorem enter (line : Nat) : Limited n rounds (fun _ => True) (enter (some n) line) := by
  intro j hj
  simp only [Journaled.enter]
  split
  · exact .ok trivial (by rw [entries_entered]; omega) (by rw [entries_entered]; omega)
  · exact .error hj (by rintro ⟨⟩)

theorem inScope (hx : Limited n rounds Q x) : Limited n rounds Q (inScope x) := by
  intro j hj
  have hends := hx (j.become j.env.push) (by rwa [Journal.entries_become])
  unfold Journaled.inScope
  generalize x (j.become j.env.push) = r at hends ⊢
  cases hends with
  | ok ha hle hn => exact .ok ha (by simpa using hle) (by simpa using hn)
  | error hn he => exact .error (by simpa using hn) he

/-- A loop that may still test more often than bodies may be entered ends. -/
theorem loop {test : Journaled Bool} {body : Journaled Unit}
    (htest : Limited n rounds (fun _ => True) test) (hbody : Limited n rounds (fun _ => True) body)
    (tests : Nat) : ∀ j, j.entries ≤ n → (n < rounds → n < tests + j.entries) →
      Capped n rounds (fun _ => True) j (loop (some n) line test body tests j) := by
  induction tests with
  | zero => exact fun j hj htests => .error hj fun _ => by omega
  | succ tests ih =>
      intro j hj htests
      rw [loop_succ]
      refine (htest j hj).bind fun b j₁ _ hle hj₁ => ?_
      cases b with
      | false => exact .ok trivial le_rfl hj₁
      | true =>
          rw [if_pos rfl, enter_bind_some]
          split
          · have hentered := entries_entered j₁ line
            refine Capped.of_le (Capped.bind (hbody _ (by omega)) fun _ j₂ _ hle₂ hj₂ => ?_) (by omega)
            -- The round took one test and made at least one entry.
            exact ih j₂ hj₂ (by omega)
          · exact .error hj₁ nofun

end Limited

/-- Every step keeps to the limit. -/
theorem interpreter_limited (n rounds : Nat) :
    (interpreter (some n) rounds).Related (fun Q x _ => Limited n rounds Q x) (fun _ => True)
      (fun _ => True) (interpreter (some n) rounds) :=
  interpreter_related .of_steady (fun ha _ hj => .ok ha le_rfl hj)
    (fun hx hf j hj => (hx j hj).bind fun a j' ha _ hj' => hf a ha j' hj') .enter .inScope
    fun _ _ _ _ _ htest hbody j hj => htest.loop hbody rounds j hj (by omega)

/-! ## Runs with a limit and without -/

/-- The run takes no entry back, and `Q` holds of its result. -/
def Grows (Q : α → Prop) (x : Journaled α) : Prop := ∀ n, Maintains (n ≤ ·.entries) Q x

namespace Grows

theorem of_steady (hx : Steady x) (hQ : ∀ a, Q a) : Grows Q x := by
  intro n j hj
  cases h : x j with
  | ok a j' => exact .ok (hQ a) (hj.trans (hx.ok h).ge)
  | error e j' => exact .error (hj.trans (hx.error h).1.ge)

theorem pure {a : α} (ha : Q a) : Grows Q (pure a) := fun _ => .pure ha

theorem bind (hx : Grows Q x) (hf : ∀ a, Q a → Grows Q' (f a)) : Grows Q' (x >>= f) :=
  fun n => (hx n).bind fun a ha => hf a ha n

theorem entered (j : Journal) (hj : n ≤ j.entries) : n ≤ (j.note [.entered line]).entries := by
  rw [entries_entered]
  omega

theorem enter (limit : Option Nat) (line : Nat) : Grows (fun _ => True) (enter limit line) :=
  fun _ => enter_maintains entered

theorem inScope (hx : Grows Q x) : Grows Q (inScope x) :=
  fun n => inScope_maintains (fun _ hj => by simpa using hj) (fun _ hj => by simpa using hj) (hx n)

theorem loop {test : Journaled Bool} {body : Journaled Unit} (htest : Grows (fun _ => True) test)
    (hbody : Grows (fun _ => True) body) (tests : Nat) :
    Grows (fun _ => True) (loop limit line test body tests) :=
  fun n => loop_maintains entered (htest n) (hbody n) tests

theorem ok (hx : Grows Q x) {a : α} {j' : Journal} (hok : x j = .ok a j') : Q a ∧ j.entries ≤ j'.entries :=
  (hx j.entries).of_ok le_rfl hok

theorem le_last (hx : Grows Q x) (j : Journal) : j.entries ≤ (last (x j)).entries :=
  last_maintained (hx j.entries) le_rfl

end Grows

/-- The run fails because the limit `n` is exceeded. -/
def Exceeds (n : Nat) (r : EStateM.Result Halt Journal α) : Prop :=
  ∃ line j, r = .error (.error ⟨line, .iterationLimit n⟩) j

theorem Exceeds.bind (hy : Exceeds n (y j)) : Exceeds n ((y >>= g) j) := by
  obtain ⟨line, j', hy⟩ := hy
  exact ⟨line, j', Run.bind_eq_error_iff.2 (.inl hy)⟩

/-- The second end is the first one if that has at most `n` entries, and otherwise exceeds the limit `n` if that is
its limit. Nothing is said where the first run is unfinished. -/
inductive Cut (n : Nat) (limit : Option Nat) :
    EStateM.Result Halt Journal α → EStateM.Result Halt Journal α → Prop
  | same {r} : (last r).entries ≤ n → Cut n limit r r
  | past {r r'} : n < (last r).entries → (limit = some n → Exceeds n r') → Cut n limit r r'
  | unfinished {j r} : Cut n limit (.error .unfinished j) r

theorem Cut.bind (hxy : Cut n limit (x j) (y j))
    (hf : ∀ a j', x j = .ok a j' → j'.entries ≤ (last (f a j')).entries)
    (hfg : ∀ a j', x j = .ok a j' → j'.entries ≤ n → Cut n limit (f a j') (g a j')) :
    Cut n limit ((x >>= f) j) ((y >>= g) j) := by
  have hstops : Exceeds n (y j) → Exceeds n ((y >>= g) j) := Exceeds.bind
  change Cut n limit (EStateM.bind x f j) (EStateM.bind y g j)
  change _ → Exceeds n (EStateM.bind y g j) at hstops
  unfold EStateM.bind at hstops ⊢
  generalize x j = r, y j = r' at hxy hf hfg hstops ⊢
  cases hxy with
  | same hle =>
      cases r with
      | ok a j' => exact hfg a j' rfl hle
      | error e j' => exact .same hle
  | past hlt hexceeds =>
      cases r with
      | ok a j' => exact .past (hlt.trans_le (hf a j' rfl)) fun h => hstops (hexceeds h)
      | error e j' => exact .past hlt fun h => hstops (hexceeds h)
  | unfinished => exact .unfinished

/-- The second run is the first one, cut at the limit `n` if it has one. -/
structure CutShort (n : Nat) (limit : Option Nat) (Q : α → Prop) (x y : Journaled α) : Prop where
  grows : Grows Q x
  cut (j : Journal) : j.entries ≤ n → Cut n limit (x j) (y j)

namespace CutShort

theorem of_steady (hx : Steady x) (hQ : ∀ a, Q a) : CutShort n limit Q x x where
  grows := .of_steady hx hQ
  cut j hj := by
    refine .same ?_
    cases h : x j with
    | ok a j' => exact (hx.ok h).trans_le hj
    | error e j' => exact (hx.error h).1.trans_le hj

theorem pure {a : α} (ha : Q a) : CutShort n limit Q (pure a) (pure a) where
  grows := .pure ha
  cut _ hj := .same hj

theorem bind (hxy : CutShort n limit Q x y) (hfg : ∀ a, Q a → CutShort n limit Q' (f a) (g a)) :
    CutShort n limit Q' (x >>= f) (y >>= g) where
  grows := hxy.grows.bind fun a ha => (hfg a ha).grows
  cut j hj := (hxy.cut j hj).bind (fun a j' h => (hfg a (hxy.grows.ok h).1).grows.le_last j')
    fun a j' h hj' => (hfg a (hxy.grows.ok h).1).cut j' hj'

theorem inScope (hxy : CutShort n limit Q x y) : CutShort n limit Q (inScope x) (inScope y) where
  grows := hxy.grows.inScope
  cut j hj := by
    have hends := hxy.cut (j.become j.env.push) (by simpa using hj)
    unfold Journaled.inScope
    generalize x (j.become j.env.push) = r, y (j.become j.env.push) = r' at hends ⊢
    cases hends with
    | same hle => cases r <;> exact .same (by simpa [last] using hle)
    | past hlt hexceeds =>
        refine .past ?_ fun h => ?_
        · cases r <;> simpa [last] using hlt
        · obtain ⟨line, j, rfl⟩ := hexceeds h
          exact ⟨line, _, rfl⟩
    | unfinished => exact .unfinished

variable {limit' : Option Nat}

/-- The first run has no limit or that of the second one. -/
theorem enter (hlimit : limit = none ∨ limit = some n) (hlimit' : limit' = none ∨ limit' = limit) :
    CutShort n limit (fun _ => True) (enter limit' line) (enter limit line) where
  grows := .enter limit' line
  cut j hj := by
    have hentered := entries_entered j line
    rcases hlimit with rfl | rfl
    -- Neither run has a limit: both enter the body.
    · obtain rfl : limit' = none := by simpa using hlimit'
      rcases Nat.lt_or_ge j.entries n with hlt | hge
      · exact .same (by simp only [Journaled.enter, last]; omega)
      · exact .past (by simp only [Journaled.enter, last]; omega) (by rintro ⟨⟩)
    -- The second run has the limit `n`: below it both enter the body, and at it the second run fails.
    · rcases Nat.lt_or_ge j.entries n with hlt | hge
      · have hsame : Journaled.enter limit' line j = Journaled.enter (some n) line j := by
          rcases hlimit' with rfl | rfl
          · simp only [Journaled.enter, if_pos hlt]
          · rfl
        rw [hsame]
        refine .same ?_
        simp only [Journaled.enter, if_pos hlt, last]
        omega
      · have hexceeds : Exceeds n (Journaled.enter (some n) line j) :=
          ⟨line, j, by simp only [Journaled.enter, if_neg hge.not_gt]⟩
        rcases hlimit' with rfl | rfl
        · exact .past (by simp only [Journaled.enter, last]; omega) fun _ => hexceeds
        · refine .same ?_
          simp only [Journaled.enter, if_neg hge.not_gt, last]
          exact hj

/-- A second loop that may test more often than the limit allows entries goes as far as the first one. -/
theorem loop (hlimit : limit = none ∨ limit = some n) (hlimit' : limit' = none ∨ limit' = limit)
    {test test' : Journaled Bool} {body body' : Journaled Unit}
    (htest : CutShort n limit (fun _ => True) test test')
    (hbody : CutShort n limit (fun _ => True) body body') (tests tests' : Nat) (j : Journal)
    (hj : j.entries ≤ n) (htests : n < tests' + j.entries) :
    Cut n limit (Journaled.loop limit' line test body tests j)
      (Journaled.loop limit line test' body' tests' j) := by
  induction tests generalizing tests' j with
  | zero => exact .unfinished
  | succ tests ih =>
      obtain _ | tests' := tests'
      · omega
      have hloop : Grows (fun _ => True) (Journaled.loop limit' line test body tests) :=
        htest.grows.loop hbody.grows tests
      have hround : Grows (fun _ => True) (body >>= fun _ => Journaled.loop limit' line test body tests) :=
        hbody.grows.bind fun _ _ => hloop
      have hentered : Grows (fun _ => True) (Journaled.enter limit' line >>= fun _ =>
          body >>= fun _ => Journaled.loop limit' line test body tests) :=
        (Grows.enter limit' line).bind fun _ _ => hround
      rw [loop_succ, loop_succ]
      refine (htest.cut j hj).bind (fun b j₁ _ => ?_) fun b j₁ hok hj₁ => ?_
      · cases b with
        | false => exact le_rfl
        | true => exact hentered.le_last j₁
      have htested := (htest.grows.ok hok).2
      cases b with
      | false => exact .same hj₁
      | true =>
          refine ((enter hlimit hlimit').cut j₁ hj₁).bind (fun _ j₂ _ => hround.le_last j₂)
            fun _ j₂ hok hj₂ => ?_
          -- The entry makes up for the test that is gone.
          have hone := entries_of_enter hok
          refine (hbody.cut j₂ hj₂).bind (fun _ j₃ _ => hloop.le_last j₃) fun _ j₃ hok hj₃ => ?_
          have hran := (hbody.grows.ok hok).2
          exact ih tests' j₃ hj₃ (by omega)

end CutShort

/-- Of two interpreters, the steps of the second are those of the first, cut at the limit. -/
theorem interpreter_cutShort {limit' : Option Nat} (hlimit : limit = none ∨ limit = some n)
    (hlimit' : limit' = none ∨ limit' = limit) (rounds' : Nat) {rounds : Nat} (hrounds : n < rounds) :
    (interpreter limit' rounds').Related (CutShort n limit) (fun _ => True) (fun _ => True)
      (interpreter limit rounds) :=
  interpreter_related .of_steady .pure .bind (fun _ => .enter hlimit hlimit') .inScope
    fun line _ _ _ _ htest hbody => {
      grows := htest.grows.loop hbody.grows rounds'
      cut := fun j hj => htest.loop hlimit hlimit' hbody rounds' rounds j hj (by omega) }

end Journaled

/-! ## Limited renders -/

namespace Program

open Journaled

variable {p : Program} {model : Value} {strict : Bool} {limit limit' : Option Nat} {n rounds rounds' : Nat}

theorem journaled_limited (n rounds : Nat) (p : Program) (model : Value) :
    Capped n rounds (fun _ => True) (.initial model) (p.journaled (some n) rounds model) :=
  interpretAll_related (interpreter_limited n rounds) (fun _ _ => trivial) _ n.zero_le

theorem entries_le (n rounds : Nat) (p : Program) (model : Value) :
    (p.journal (some n) rounds model).entries ≤ n := by
  have hends := p.journaled_limited n rounds model
  unfold journal
  generalize p.journaled (some n) rounds model = r at hends ⊢
  cases hends with
  | ok _ _ hn => exact hn
  | error hn _ => exact hn

theorem outcome_limited_ne_unfinished (hrounds : n < rounds) :
    p.outcome ⟨strict, some n⟩ rounds model ≠ .error .unfinished := by
  have hends := p.journaled_limited n rounds model
  rw [outcome_eq_recount]
  unfold recount
  generalize p.journaled (some n) rounds model = r at hends ⊢
  cases hends with
  | ok _ _ _ => nofun
  | error _ he =>
      intro h
      cases h
      exact absurd (he rfl) hrounds.not_ge

theorem journaled_cut (p : Program) (model : Value) (hlimit : limit = none ∨ limit = some n)
    (hlimit' : limit' = none ∨ limit' = limit) (rounds' : Nat) (hrounds : n < rounds) :
    Cut n limit (p.journaled limit' rounds' model) (p.journaled limit rounds model) :=
  (interpretAll_related (interpreter_cutShort hlimit hlimit' rounds' hrounds) fun _ _ => trivial).cut _
    n.zero_le

/-- A finished render that keeps to a limit is not changed by it, nor by loops that may test more often than
the limit allows entries. -/
theorem outcome_eq_of_entries_le (hends : p.outcome ⟨strict, limit'⟩ rounds' model ≠ .error .unfinished)
    (hentries : (p.journal limit' rounds' model).entries ≤ n) (hlimit : limit = none ∨ limit = some n)
    (hlimit' : limit' = none ∨ limit' = limit) (hrounds : n < rounds) :
    p.outcome ⟨strict, limit⟩ rounds model = p.outcome ⟨strict, limit'⟩ rounds' model := by
  have hcut := p.journaled_cut model hlimit hlimit' rounds' hrounds
  rw [outcome_eq_recount] at hends ⊢
  rw [outcome_eq_recount]
  unfold recount at hends ⊢
  unfold journal at hentries
  generalize p.journaled limit' rounds' model = r, p.journaled limit rounds model = r'
    at hcut hends hentries ⊢
  cases hcut with
  | same => rfl
  | past hlt => exact absurd hlt hentries.not_gt
  | unfinished => exact absurd rfl hends

/-- A finished render that does not keep to a limit exceeds it when it has that limit. -/
theorem outcome_eq_limit_error (hends : p.outcome ⟨strict, none⟩ rounds' model ≠ .error .unfinished)
    (hentries : n < (p.journal none rounds' model).entries) (hrounds : n < rounds) :
    ∃ line, p.outcome ⟨strict, some n⟩ rounds model = .error (.error ⟨line, .iterationLimit n⟩) := by
  have hcut := p.journaled_cut model (.inr rfl) (.inl rfl) rounds' hrounds
  rw [outcome_eq_recount] at hends ⊢
  unfold recount at hends ⊢
  unfold journal at hentries
  generalize p.journaled none rounds' model = r, p.journaled (some n) rounds model = r'
    at hcut hends hentries ⊢
  cases hcut with
  | same hle => exact absurd hentries hle.not_gt
  | past _ hexceeds =>
      obtain ⟨line, j, rfl⟩ := hexceeds rfl
      exact ⟨line, rfl⟩
  | unfinished => exact absurd rfl hends

/-- If a render without a limit ends after `k` iterations, which are the loop bodies that it has entered, the render
under the limit `n` ends in the same way when `k ≤ n`, and otherwise fails because the limit is exceeded. -/
theorem render_limited {k : Nat} {r : Except Halt Rendered}
    (hr : p.outcome ⟨strict, none⟩ rounds model = r) (hends : r ≠ .error .unfinished)
    (hk : p.iterations ⟨strict, none⟩ rounds model = k) :
    (p.journal none rounds model).entries = k ∧
      (k < UInt64.size → p.render ⟨strict, none⟩ model = r) ∧
      ∀ n, (k ≤ n → p.render ⟨strict, some n⟩ model = r) ∧
        (n < k → ∃ e, p.render ⟨strict, some n⟩ model = .error (.error e) ∧
          e.cause.faultClass = .evaluation ∧
          e.cause.message = "loop iteration limit of " ++ toString n ++ " exceeded") := by
  subst hr hk
  simp only [iterations_eq_entries, render_eq_outcome]
  refine ⟨trivial, fun hlt => ?_, fun n => ⟨fun hle => ?_, fun hlt => ?_⟩⟩
  · exact outcome_eq_of_entries_le hends hlt.le (.inl rfl) (.inl rfl) (Nat.lt_succ_self _)
  · exact outcome_eq_of_entries_le hends hle (.inr rfl) (.inl rfl) (Nat.lt_succ_self n)
  · obtain ⟨line, herror⟩ := outcome_eq_limit_error hends hlt (Nat.lt_succ_self n)
    exact ⟨_, herror, rfl, rfl⟩

/-- A loop whose body has a loop of two rounds, and one more that its own variable allows once. -/
def nestedLoops : Program where
  instructions := [.forEach 1 "x" (.path [modelName]) [
    .forEach 1 "y" (.path [modelName]) [.value 1 (.path ["y"])],
    .whileLoop 1 (.path ["x"]) [.change (.assign 1 "x" .set (.bool false))]]]
  ending := .lf

theorem render_limited_nested :
    nestedLoops.outcome ⟨true, none⟩ 3 (.list [.bool true, .bool false]) =
        .ok ⟨"truefalsetruefalse", []⟩ ∧
      nestedLoops.iterations ⟨true, none⟩ 3 (.list [.bool true, .bool false]) = 7 ∧
      (nestedLoops.journal none 3 (.list [.bool true, .bool false])).entries = 7 ∧
      nestedLoops.render ⟨true, some 7⟩ (.list [.bool true, .bool false]) =
        .ok ⟨"truefalsetruefalse", []⟩ ∧
      ∃ e, nestedLoops.render ⟨true, some 6⟩ (.list [.bool true, .bool false]) = .error (.error e) ∧
        e.cause.faultClass = .evaluation ∧
        e.cause.message = "loop iteration limit of 6 exceeded" := by
  have hr : nestedLoops.outcome ⟨true, none⟩ 3 (.list [.bool true, .bool false]) =
      .ok ⟨"truefalsetruefalse", []⟩ := by cbv
  have hk : nestedLoops.iterations ⟨true, none⟩ 3 (.list [.bool true, .bool false]) = 7 := by cbv
  obtain ⟨hentries, -, hlimited⟩ := render_limited hr (by rintro ⟨⟩) hk
  exact ⟨hr, hk, hentries, (hlimited 7).1 (by decide), (hlimited 6).2 (by decide)⟩

/-- A render with a limit ends, with a result or an error, and enters no more loop bodies than the limit allows.
More tests of its loops would make no difference. -/
theorem render_limited_ends (p : Program) (model : Value) (strict : Bool) (n : Nat) :
    ((∃ r, p.render ⟨strict, some n⟩ model = .ok r) ∨
        ∃ e, p.render ⟨strict, some n⟩ model = .error (.error e)) ∧
      ∀ rounds, (p.journal (some n) rounds model).entries ≤ n ∧
        p.outcome ⟨strict, some n⟩ rounds model = p.recount ⟨strict, some n⟩ rounds model ∧
        p.outcome ⟨strict, some n⟩ (n + 1 + rounds) model = p.render ⟨strict, some n⟩ model := by
  have hends : p.outcome ⟨strict, some n⟩ (n + 1) model ≠ .error .unfinished :=
    outcome_limited_ne_unfinished (Nat.lt_succ_self n)
  refine ⟨?_, fun rounds => ⟨p.entries_le n rounds model, p.outcome_eq_recount _ rounds model, ?_⟩⟩
  · rw [render_eq_outcome]
    cases h : p.outcome ⟨strict, some n⟩ (roundsFor ⟨strict, some n⟩) model with
    | ok r => exact .inl ⟨r, rfl⟩
    | error e =>
        cases e with
        | error e => exact .inr ⟨e, rfl⟩
        | unfinished => exact absurd h hends
  · exact outcome_eq_of_entries_le hends (p.entries_le n (n + 1) model) (.inr rfl) (.inr rfl) (by omega)

end Program

end MailTemplate
