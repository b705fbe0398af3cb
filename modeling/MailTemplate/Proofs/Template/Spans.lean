import MailTemplate.Proofs.Template.Braces

/-!
# Where code blocks begin and end

Every code block of a template begins at one line of the source and ends at one (`Spans.unique`). A line
that the block takes, or that leaves no line of the template, lies between them (`Spans.around`).
-/

namespace MailTemplate

open Text

namespace Reader

variable {r r' : Reader} {b : OpenBlock} {k number : Nat} {line : List Char} {o : Option Line}
  {ls : List Line}

/-- The code block `k` has begun. -/
def Begun (k : Nat) (r : Reader) : Prop := k < r.blocks

/-- The code block `k` has begun, and is not the one that the reader is in. -/
def Ended (k : Nat) (r : Reader) : Prop := r.Begun k ∧ ∀ b ∈ r.current, b.index ≠ k

/-- Reading the source, `r` comes to the line with the given number and goes on as `r'`. -/
structure Passes (source : String) (number : Nat) (line : List Char) (r : Reader) (o : Option Line)
    (r' : Reader) : Prop where
  step : r.step number line = .ok (o, r')
  reached : ∃ front back ls, linesOf source = front ++ line :: back ∧ number = front.length + 1 ∧
    start.run 1 front = .ok (ls, r)

theorem Passes.number_pos {source : String} (h : Passes source number line r o r') : 0 < number := by
  obtain ⟨_, front, _, _, _, rfl, _⟩ := h
  exact Nat.succ_pos _

theorem Passes.number_le {source : String} (h : Passes source number line r o r') :
    number ≤ (linesOf source).length := by
  obtain ⟨_, front, back, _, hlines, rfl, _⟩ := h
  rw [hlines, List.length_append, List.length_cons]
  omega

theorem Passes.getElem? {source : String} (h : Passes source number line r o r') :
    (linesOf source)[number - 1]? = some line := by
  obtain ⟨_, front, back, _, hlines, rfl, _⟩ := h
  rw [hlines, Nat.add_sub_cancel, List.getElem?_append_right (Nat.le_refl _)]
  simp

theorem Passes.sectioned {source : String} (h : Passes source number line r o r') :
    ∃ ls, Sectioned ls r := by
  obtain ⟨_, _, _, ls, _, _, hfront⟩ := h
  exact ⟨ls, run_sectioned hfront⟩

/-! ## What a step keeps -/

theorem Sectioned.index_eq (h : Sectioned ls r) : ∀ b ∈ r.current, r.blocks = b.index + 1 := by
  cases h with
  | outside => nofun
  | inside =>
      rintro _ ⟨⟩
      rfl

theorem Sectioned.enters_index {blocks : Nat} (h : Sectioned ls r) (hb : r.Enters number b blocks) :
    blocks = b.index + 1 ∧ ¬ r.Ended b.index := by
  cases hb with
  | inside hr => exact ⟨h.index_eq b hr, fun hended => hended.2 b hr rfl⟩
  | opening hr => exact ⟨rfl, fun hended => Nat.lt_irrefl _ hended.1⟩

theorem Begun.step (h : r.Begun k) (hstep : Steps r number o r') : r'.Begun k := by
  cases hstep with
  | text | blank => exact h
  | closing hb _ | code hb _ =>
      cases hb with
      | inside => exact h
      | opening => exact Nat.lt_succ_of_lt h

theorem Ended.step (h : r.Ended k) (hstep : Steps r number o r') : r'.Ended k := by
  refine ⟨h.1.step hstep, ?_⟩
  cases hstep with
  | text | blank => exact h.2
  | closing => nofun
  | @code b _ _ _ _ hb _ =>
      rintro _ ⟨⟩
      cases hb with
      | inside hr => exact h.2 b hr
      | opening => exact (Nat.ne_of_lt h.1).symm

/-- What every step keeps of a reader is kept by a run. -/
theorem run_keeps {P : Reader → Prop}
    (hstep : ∀ {r number o r'}, P r → Steps r number o r' → P r') {lines : List (List Char)}
    (hr : P r) (h : r.run number lines = .ok (ls, r')) : P r' := by
  induction lines generalizing r number ls with
  | nil =>
      rw [run] at h
      cases h
      exact hr
  | cons line lines ih =>
      obtain ⟨o, mid, more, ho, hmore, rfl⟩ := run_cons_eq_ok_iff.1 h
      exact ih (hstep hr (step_steps ho)) hmore

/-- What comes to hold of the reader during a run does so at one of the lines. -/
theorem run_turns {P : Reader → Prop} {lines : List (List Char)} (hr : ¬ P r) (hr' : P r')
    (h : r.run number lines = .ok (ls, r')) :
    ∃ front line back before mid o mid', lines = front ++ line :: back ∧
      r.run number front = .ok (before, mid) ∧ mid.step (number + front.length) line = .ok (o, mid') ∧
      ¬ P mid ∧ P mid' := by
  induction lines generalizing r number ls with
  | nil =>
      rw [run] at h
      cases h
      exact absurd hr' hr
  | cons first lines ih =>
      obtain ⟨o, mid, more, ho, hmore, rfl⟩ := run_cons_eq_ok_iff.1 h
      by_cases hmid : P mid
      · exact ⟨[], first, lines, [], r, o, mid, rfl, rfl, ho, hr, hmid⟩
      · obtain ⟨front, line, back, before, at', o', mid', rfl, hfront, hstep, hnot, hthen⟩ := ih hmid hmore
        refine ⟨first :: front, line, back, _, at', o', mid', rfl,
          run_cons_eq_ok_iff.2 ⟨o, mid, before, ho, hfront, rfl⟩, ?_, hnot, hthen⟩
        rwa [List.length_cons, ← Nat.add_assoc, Nat.add_right_comm]

end Reader

/-! ## Spans -/

open Reader

/-- In the source the code block `k` begins at the line `first` and ends at the line `last`. -/
structure Spans (source : String) (k first last : Nat) : Prop where
  opens : ∃ line r o r', Passes source first line r o r' ∧ ¬ r.Begun k ∧ r'.Begun k
  closes : ∃ line r o r', Passes source last line r o r' ∧ ¬ r.Ended k ∧ r'.Ended k

variable {source : String} {k number : Nat} {line : List Char} {r r' : Reader} {o : Option Line}

/-- A block begins at a line with the marker of blocks in front. -/
theorem Spans.marker {first last : Nat} (h : Spans source k first last) :
    ∃ line rest, (linesOf source)[first - 1]? = some line ∧ trimStart line = '@' :: '{' :: rest := by
  obtain ⟨line, r, o, r', hline, hnot, hbegun⟩ := h.opens
  refine ⟨line, ?_⟩
  cases step_gives hline.step with
  | outer | inner | blank => exact absurd hbegun hnot
  | closing hb hmarker _ | code hb hmarker _ =>
      cases hb with
      | inside => exact absurd hbegun hnot
      | opening hr =>
          obtain ⟨rest, hrest⟩ := hmarker hr
          exact ⟨rest, hline.getElem?, hrest⟩

/-- A block ends at a line with the brace that closes it. -/
theorem Spans.brace {first last : Nat} (h : Spans source k first last) :
    ∃ line r o r' before after, Passes source last line r o r' ∧
      scanCode r.depth none (r.scanned line) = .ok (.closed before after) := by
  obtain ⟨line, r, o, r', hline, hnot, hended⟩ := h.closes
  refine ⟨line, r, o, r', ?_⟩
  cases step_gives hline.step with
  | outer | inner | blank => exact absurd hended hnot
  | @closing b blocks before after hb _ hscan => exact ⟨before, after, hline, hscan⟩
  | @code b blocks depth last hb =>
      -- the open block is none that ends, so that `k` had ended before
      obtain ⟨hbegun, hothers⟩ := hended
      have hindex : b.index ≠ k := hothers (afterCode b depth last) rfl
      refine absurd ?_ hnot
      cases hb with
      | inside hr => exact ⟨hbegun, by rw [hr]; rintro _ ⟨⟩; exact hindex⟩
      | opening hr => exact ⟨Nat.lt_of_le_of_ne (Nat.le_of_lt_succ hbegun) hindex.symm, by rw [hr]; nofun⟩

/-- Behind a line the reader goes on from where it is. -/
theorem Reader.Passes.run_later {later : Nat} {line' : List Char} {s s' : Reader} {o' : Option Line}
    (h : Passes source number line r o r') (h' : Passes source later line' s o' s') (hlt : number < later) :
    ∃ lines ls, r'.run (number + 1) lines = .ok (ls, s) := by
  obtain ⟨hline, front, back, ls, hlines, rfl, hfront⟩ := h
  obtain ⟨_, front', back', ls', hlines', rfl, hfront'⟩ := h'
  rcases List.append_eq_append_iff.1 (hlines.symm.trans hlines') with ⟨mid, rfl, hmid⟩ | ⟨mid, rfl, _⟩
  · cases mid with
    | nil => simp at hlt
    | cons first mid =>
        obtain ⟨rfl, _⟩ := List.cons.inj hmid
        obtain ⟨_, at', after, hat, hafter, rfl⟩ := run_append_eq_ok_iff.1 hfront'
        rw [hfront] at hat
        cases hat
        obtain ⟨_, next, more, hnext, hmore, rfl⟩ := run_cons_eq_ok_iff.1 hafter
        rw [Nat.add_comm 1, hline] at hnext
        cases hnext
        exact ⟨mid, more, by rwa [Nat.add_comm 1] at hmore⟩
  · rw [List.length_append] at hlt
    omega

/-- A line behind which something holds that steps keep is not before one where it does not hold yet. -/
theorem Reader.Passes.not_before {P : Reader → Prop}
    (hstep : ∀ {r number o r'}, P r → Steps r number o r' → P r') {later : Nat} {line' : List Char}
    {s s' : Reader} {o' : Option Line} (h : Passes source number line r o r')
    (h' : Passes source later line' s o' s') (hr' : P r') (hs : ¬ P s) : later ≤ number := by
  refine Nat.le_of_not_lt fun hlt => hs ?_
  obtain ⟨lines, ls, hrun⟩ := h.run_later h' hlt
  exact run_keeps hstep hr' hrun

/-- A block begins at one line and ends at one line. -/
theorem Spans.unique {first last first' last' : Nat} (h : Spans source k first last)
    (h' : Spans source k first' last') : first = first' ∧ last = last' := by
  obtain ⟨⟨_, _, _, _, hopen, hbegun, hopened⟩, ⟨_, _, _, _, hclose, hended, hclosed⟩⟩ := h
  obtain ⟨⟨_, _, _, _, hopen', hbegun', hopened'⟩, ⟨_, _, _, _, hclose', hended', hclosed'⟩⟩ := h'
  constructor
  · exact Nat.le_antisymm (hopen'.not_before Begun.step hopen hopened' hbegun)
      (hopen.not_before Begun.step hopen' hopened hbegun')
  · exact Nat.le_antisymm (hclose'.not_before Ended.step hclose hclosed' hended)
      (hclose.not_before Ended.step hclose' hclosed hended')

/-- What holds before a line, and not at the start, came to hold at an earlier line. -/
theorem Reader.Passes.turned {P : Reader → Prop} (h : Passes source number line r o r')
    (hstart : ¬ P start) (hr : P r) :
    ∃ first, first < number ∧ ∃ line r o r', Passes source first line r o r' ∧ ¬ P r ∧ P r' := by
  obtain ⟨_, front, back, ls, hlines, rfl, hfront⟩ := h
  obtain ⟨front, first, mid, before, at', o, next, rfl, hbefore, hstep, hnot, hthen⟩ :=
    run_turns hstart hr hfront
  rw [Nat.add_comm 1] at hstep
  refine ⟨front.length + 1, ?_, first, at', o, next, ⟨hstep, front, mid ++ line :: back, before, ?_, rfl,
    hbefore⟩, hnot, hthen⟩
  · simp
  · rw [hlines, List.append_assoc, List.cons_append]

/-- What holds behind all lines, and not behind a line, comes to hold at a later line. -/
theorem Reader.Passes.turns {P : Reader → Prop} {t : Template} (ht : Template.ofSource source = .ok t)
    (h : Passes source number line r o r') (hr' : ¬ P r')
    (hend : ∀ blocks lines ls, r'.run (number + 1) lines = .ok (ls, ⟨blocks, none⟩) → P ⟨blocks, none⟩) :
    ∃ last, number < last ∧ ∃ line r o r', Passes source last line r o r' ∧ ¬ P r ∧ P r' := by
  obtain ⟨blocks, hrun, _⟩ := Reader.ofSource_eq_ok_iff.1 ht
  obtain ⟨hline, front, back, ls, hlines, rfl, hfront⟩ := h
  obtain ⟨_, mid, _, hmid, hrest, _⟩ := run_append_eq_ok_iff.1 (hlines ▸ hrun)
  rw [hfront] at hmid
  cases hmid
  obtain ⟨_, next, _, hnext, hback, rfl⟩ := run_cons_eq_ok_iff.1 hrest
  rw [Nat.add_comm 1] at hnext hback
  rw [hline] at hnext
  cases hnext
  obtain ⟨mid, last, rest, before, at', o', next, rfl, hbefore, hstep, hnot, hthen⟩ :=
    run_turns hr' (hend _ _ _ hback) hback
  refine ⟨front.length + 1 + 1 + mid.length, by omega, last, at', o', next, ⟨hstep, front ++ line :: mid,
    rest, ls ++ (o.toList ++ before), ?_, ?_, ?_⟩, hnot, hthen⟩
  · rw [hlines, List.append_assoc, List.cons_append]
  · rw [List.length_append, List.length_cons]
    omega
  · refine run_append_eq_ok_iff.2 ⟨ls, r, _, hfront, ?_, rfl⟩
    rw [Nat.add_comm 1]
    exact run_cons_eq_ok_iff.2 ⟨o, r', before, hline, hbefore, rfl⟩

/-- A block that has begun behind a line, and had not ended before it, begins there or earlier, and ends
there or later. -/
theorem Spans.around {t : Template} (ht : Template.ofSource source = .ok t)
    (h : Passes source number line r o r') (hopen : ¬ r.Ended k) (hbegun : r'.Begun k) :
    ∃ first last, Spans source k first last ∧ first ≤ number ∧ number ≤ last ∧
      (r.Begun k → first < number) ∧ (¬ r'.Ended k → number < last) := by
  have hfirst : ∃ first, (first ≤ number ∧ (r.Begun k → first < number)) ∧
      ∃ line r o r', Passes source first line r o r' ∧ ¬ r.Begun k ∧ r'.Begun k := by
    by_cases hr : r.Begun k
    · obtain ⟨first, hlt, hfirst⟩ := h.turned (P := Begun k) (Nat.not_lt_zero k) hr
      exact ⟨first, ⟨Nat.le_of_lt hlt, fun _ => hlt⟩, hfirst⟩
    · exact ⟨number, ⟨Nat.le_refl _, fun hr' => absurd hr' hr⟩, line, r, o, r', h, hr, hbegun⟩
  have hlast : ∃ last, (number ≤ last ∧ (¬ r'.Ended k → number < last)) ∧
      ∃ line r o r', Passes source last line r o r' ∧ ¬ r.Ended k ∧ r'.Ended k := by
    by_cases hr' : r'.Ended k
    · exact ⟨number, ⟨Nat.le_refl _, fun h => absurd hr' h⟩, line, r, o, r', h, hopen, hr'⟩
    · obtain ⟨last, hlt, hlast⟩ := h.turns ht hr' fun blocks lines ls hback =>
        ⟨run_keeps (P := Begun k) Begun.step hbegun hback, nofun⟩
      exact ⟨last, ⟨Nat.le_of_lt hlt, fun _ => hlt⟩, hlast⟩
  obtain ⟨first, ⟨hle, hlt⟩, hfirst⟩ := hfirst
  obtain ⟨last, ⟨hle', hlt'⟩, hlast⟩ := hlast
  exact ⟨first, last, ⟨hfirst, hlast⟩, hle, hle', hlt, hlt'⟩

end MailTemplate
