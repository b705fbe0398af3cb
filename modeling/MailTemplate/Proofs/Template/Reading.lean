import MailTemplate.Proofs.Results
import MailTemplate.Proofs.Text.Blank
import MailTemplate.Template.Reader

/-!
# What reading a line does

`Gives` lists what a line can be read as, and `Steps` what it can do to the reader. An invariant that
every step keeps is kept by a run over any lines (`run_invariant`); the lines that a run gives are in the
order of their numbers.
-/

namespace MailTemplate.Reader

open Text

/-- The block that a code line is in, with the number of blocks that began up to it. -/
inductive Enters (r : Reader) (number : Nat) : OpenBlock → Nat → Prop
  | inside {b} : r.current = some b → Enters r number b r.blocks
  | opening : r.current = none → Enters r number ⟨1, number, r.blocks, false, false⟩ (r.blocks + 1)

/-- How many braces are open before a line is scanned: those of the open block, or the opener alone. -/
def depth (r : Reader) : Nat :=
  match r.current with
  | some b => b.depth
  | none => 1

/-- What is scanned of a code line: all of it, or what stands behind the opener. -/
def scanned (r : Reader) (line : List Char) : List Char :=
  match r.current with
  | some _ => line
  | none => (trimStart line).drop 2

/-- A line that is scanned is in a block, or opens one. -/
def Scannable (r : Reader) (line : List Char) : Prop :=
  r.current = none → ∃ rest, trimStart line = '@' :: '{' :: rest

/-- What a line gives, read off its text, and the reader behind it. -/
inductive Gives (r : Reader) (number : Nat) (line : List Char) : Option Line → Reader → Prop
  | outer {fragments} : r.current = none → Fragment.ofLine line = .ok fragments →
      Gives r number line (some (.text number fragments none)) r
  | inner {b cs fragments} : r.current = some b → (cs = line ∨ trimStart line = '@' :: ':' :: cs) →
      Fragment.ofLine cs = .ok fragments →
      Gives r number line (some (.text number fragments (some b.index))) r
  | blank {b} : r.current = some b → allBlank line = true → Gives r number line none r
  | closing {b blocks before after} : r.Enters number b blocks → r.Scannable line →
      scanCode r.depth none (r.scanned line) = .ok (.closed before after) →
      Gives r number line (codeLine number before b.index) ⟨blocks, none⟩
  | code {b blocks depth last} : r.Enters number b blocks → r.Scannable line →
      scanCode r.depth none (r.scanned line) = .ok (.opened depth last) →
      Gives r number line (codeLine number (r.scanned line) b.index)
        ⟨blocks, some (afterCode b depth last)⟩

variable {r r' : Reader} {b : OpenBlock} {number : Nat} {line : List Char} {o : Option Line}

theorem textLine_eq_ok_iff {cs : List Char} {block : Option Nat} :
    textLine number cs block = .ok o ↔
      ∃ fragments, Fragment.ofLine cs = .ok fragments ∧ o = some (.text number fragments block) := by
  rw [textLine, map_eq_ok_iff]
  simp only [eq_comm]

theorem mapText_eq_ok_iff {cs : List Char} {block : Option Nat} :
    (textLine number cs block).map (·, r) = .ok (o, r') ↔
      ∃ fragments, Fragment.ofLine cs = .ok fragments ∧ o = some (.text number fragments block) ∧ r' = r := by
  rw [map_eq_ok_iff]
  constructor
  · rintro ⟨text, htext, h⟩
    obtain ⟨fragments, hfragments, rfl⟩ := textLine_eq_ok_iff.1 htext
    cases h
    exact ⟨fragments, hfragments, rfl, rfl⟩
  · rintro ⟨fragments, hfragments, rfl, rfl⟩
    exact ⟨_, textLine_eq_ok_iff.2 ⟨fragments, hfragments, rfl⟩, rfl⟩

theorem Enters.depth_eq {blocks : Nat} (h : r.Enters number b blocks) : r.depth = b.depth := by
  cases h with
  | inside hr | opening hr => simp only [depth, hr]

theorem openLine_gives {rest : List Char} (hr : r.current = none)
    (hrest : trimStart line = '@' :: '{' :: rest)
    (h : r.openLine number line rest = .ok (o, r')) : Gives r number line o r' := by
  obtain ⟨scan, hscan, h⟩ := bind_eq_ok_iff.1 h
  have hopens : r.Scannable line := fun _ => ⟨rest, hrest⟩
  have hscanned : r.scanned line = rest := by
    simp only [scanned, hr, hrest]
    rfl
  have henters : r.Enters number ⟨1, number, r.blocks, false, false⟩ (r.blocks + 1) := .opening hr
  have hdepth : r.depth = 1 := henters.depth_eq
  rw [← hscanned, ← hdepth] at hscan
  cases scan with
  | opened depth last =>
      cases h
      rw [← hscanned]
      exact .code henters hopens hscan
  | closed before after =>
      simp only at h
      split at h
      · obtain ⟨_, _, h⟩ := bind_eq_ok_iff.1 h
        cases h
        exact .closing henters hopens hscan
      · obtain ⟨text, htext, h⟩ := bind_eq_ok_iff.1 h
        obtain ⟨fragments, hfragments, rfl⟩ := textLine_eq_ok_iff.1 htext
        cases h
        exact .outer hr hfragments

theorem statementLine_gives (hr : r.current = some b)
    (h : r.statementLine b number line = .ok (o, r')) : Gives r number line o r' := by
  obtain ⟨scan, hscan, h⟩ := bind_eq_ok_iff.1 h
  have hopens : r.Scannable line := fun hnone => by simp [hr] at hnone
  have hscanned : r.scanned line = line := by simp only [scanned, hr]
  have henters : r.Enters number b r.blocks := .inside hr
  rw [← hscanned, ← henters.depth_eq] at hscan
  cases scan with
  | opened depth last =>
      cases h
      have hcode := Gives.code henters hopens hscan
      rwa [hscanned] at hcode
  | closed before after =>
      obtain ⟨_, _, h⟩ := bind_eq_ok_iff.1 h
      cases h
      exact .closing henters hopens hscan

theorem innerLine_gives (hr : r.current = some b)
    (h : r.innerLine b number line = .ok (o, r')) : Gives r number line o r' := by
  simp only [innerLine] at h
  split at h
  · rename_i hempty
    cases h
    exact .blank hr (trim_eq_nil_iff.1 (List.isEmpty_iff.1 hempty))
  · split at h
    · exact statementLine_gives hr h
    · split at h
      · rename_i hmarker
        obtain ⟨fragments, hfragments, rfl, rfl⟩ := mapText_eq_ok_iff.1 h
        exact .inner hr (.inr hmarker) hfragments
      · split at h
        · split at h
          · cases h
          · exact statementLine_gives hr h
        · obtain ⟨fragments, hfragments, rfl, rfl⟩ := mapText_eq_ok_iff.1 h
          exact .inner hr (.inl rfl) hfragments

theorem step_gives (h : r.step number line = .ok (o, r')) : Gives r number line o r' := by
  unfold step at h
  split at h
  · rename_i b hr
    exact innerLine_gives hr h
  · rename_i hr
    split at h
    · exact openLine_gives hr ‹_› h
    · obtain ⟨fragments, hfragments, rfl, rfl⟩ := mapText_eq_ok_iff.1 h
      exact .outer hr hfragments

/-- What a line can do to the reader, whatever its text is. -/
inductive Steps (r : Reader) (number : Nat) : Option Line → Reader → Prop
  | text {cs fragments} : Fragment.ofLine cs = .ok fragments →
      Steps r number (some (.text number fragments (r.current.map OpenBlock.index))) r
  | blank : Steps r number none r
  | closing {b blocks cs before after} : r.Enters number b blocks →
      scanCode b.depth none cs = .ok (.closed before after) →
      Steps r number (codeLine number before b.index) ⟨blocks, none⟩
  | code {b blocks cs depth last} : r.Enters number b blocks →
      scanCode b.depth none cs = .ok (.opened depth last) →
      Steps r number (codeLine number cs b.index) ⟨blocks, some (afterCode b depth last)⟩

theorem Gives.steps (h : Gives r number line o r') : Steps r number o r' := by
  cases h with
  | outer hr hfragments | inner hr _ hfragments =>
      have htext : Steps r number _ r := .text hfragments
      rwa [hr] at htext
  | blank => exact .blank
  | closing henters _ hscan =>
      rw [henters.depth_eq] at hscan
      exact .closing henters hscan
  | code henters _ hscan =>
      rw [henters.depth_eq] at hscan
      exact .code henters hscan

theorem step_steps (h : r.step number line = .ok (o, r')) : Steps r number o r' := (step_gives h).steps

/-! ## Runs -/

theorem run_cons_eq_ok_iff {line : List Char} {lines : List (List Char)} {ls : List Line} :
    r.run number (line :: lines) = .ok (ls, r') ↔
      ∃ o mid more, r.step number line = .ok (o, mid) ∧ mid.run (number + 1) lines = .ok (more, r') ∧
        ls = o.toList ++ more := by
  rw [run]
  constructor
  · intro h
    split at h
    · cases h
    · rename_i o mid ho
      split at h
      · cases h
      · rename_i more r'' hmore
        cases h
        exact ⟨o, mid, more, ho, hmore, rfl⟩
  · rintro ⟨o, mid, more, ho, hmore, rfl⟩
    simp only [ho, hmore]

/-- A run over two texts is a run over the first, and from where it ends a run over the second. -/
theorem run_append (r : Reader) (number : Nat) (front back : List (List Char)) :
    r.run number (front ++ back) = do
      let s ← r.run number front
      let s' ← s.2.run (number + front.length) back
      return (s.1 ++ s'.1, s'.2) := by
  induction front generalizing r number with
  | nil =>
      simp only [List.nil_append, run, List.length_nil, Nat.add_zero]
      change _ = (r.run number back >>= fun s' => Except.ok (s'.1, s'.2))
      cases r.run number back <;> rfl
  | cons line front ih =>
      have hnumber : number + 1 + front.length = number + (line :: front).length := by
        rw [List.length_cons]
        omega
      simp only [List.cons_append, run, ih, hnumber, bind, Except.bind, pure, Except.pure]
      cases r.step number line with
      | error cause => rfl
      | ok s =>
          simp only
          cases s.2.run (number + 1) front with
          | error e => rfl
          | ok s' =>
              simp only
              cases s'.2.run (number + (line :: front).length) back <;> simp

theorem run_append_eq_ok_iff {front back : List (List Char)} {ls : List Line} :
    r.run number (front ++ back) = .ok (ls, r') ↔
      ∃ before mid after, r.run number front = .ok (before, mid) ∧
        mid.run (number + front.length) back = .ok (after, r') ∧ ls = before ++ after := by
  rw [run_append, bind_eq_ok_iff]
  constructor
  · rintro ⟨⟨before, mid⟩, hbefore, h⟩
    obtain ⟨⟨after, r'⟩, hafter, h⟩ := bind_eq_ok_iff.1 h
    cases h
    exact ⟨before, mid, after, hbefore, hafter, rfl⟩
  · rintro ⟨before, mid, after, hbefore, hafter, rfl⟩
    exact ⟨(before, mid), hbefore, bind_eq_ok_iff.2 ⟨(after, r'), hafter, rfl⟩⟩

/-- What every step keeps of the lines before it, the reader and the number of the next line is kept
by a run. -/
theorem run_invariant {P : Nat → List Line → Reader → Prop}
    (hstep : ∀ number ls r o r', P number ls r → Steps r number o r' →
      P (number + 1) (ls ++ o.toList) r') {lines : List (List Char)} {front ls : List Line}
    (hP : P number front r) (h : r.run number lines = .ok (ls, r')) :
    P (number + lines.length) (front ++ ls) r' := by
  induction lines generalizing r number front ls with
  | nil =>
      rw [run] at h
      cases h
      rwa [List.append_nil]
  | cons line lines ih =>
      obtain ⟨o, mid, more, ho, hmore, rfl⟩ := run_cons_eq_ok_iff.1 h
      have := ih (hstep _ _ _ _ _ hP (step_steps ho)) hmore
      rwa [List.append_assoc, Nat.add_right_comm] at this

/-- Lines that are numbered in order, with numbers below `number`. -/
def Ordered (number : Nat) (ls : List Line) : Prop :=
  (ls.map Line.number).Pairwise (· < ·) ∧ ∀ l ∈ ls, l.number < number

theorem number_of_codeLine {cs : List Char} {k : Nat} {l : Line} (h : l ∈ codeLine number cs k) :
    l.number = number := by
  unfold codeLine at h
  split at h
  · cases h
  · cases h
    rfl

theorem Steps.number_eq (h : Steps r number o r') {l : Line} (hl : l ∈ o) : l.number = number := by
  cases h with
  | text =>
      cases hl
      rfl
  | blank => cases hl
  | closing | code => exact number_of_codeLine hl

theorem Ordered.step {ls : List Line} (h : Ordered number ls) (hstep : Steps r number o r') :
    Ordered (number + 1) (ls ++ o.toList) := by
  obtain ⟨hsorted, hbelow⟩ := h
  cases o with
  | none =>
      rw [Option.toList_none, List.append_nil]
      exact ⟨hsorted, fun l hl => Nat.lt_succ_of_lt (hbelow l hl)⟩
  | some l =>
      have hnumber := hstep.number_eq rfl
      constructor
      · rw [List.map_append, List.pairwise_append]
        refine ⟨hsorted, List.pairwise_singleton .., ?_⟩
        intro n hn m hm
        obtain ⟨l', hl', rfl⟩ := List.mem_map.1 hn
        obtain rfl : m = l.number := by simpa using hm
        rw [hnumber]
        exact hbelow l' hl'
      · intro l' hl'
        rcases List.mem_append.1 hl' with hl' | hl'
        · exact Nat.lt_succ_of_lt (hbelow l' hl')
        · obtain rfl : l' = l := by simpa using hl'
          rw [hnumber]
          exact Nat.lt_succ_self number

theorem run_ordered {lines : List (List Char)} {ls : List Line} (h : r.run number lines = .ok (ls, r')) :
    Ordered (number + lines.length) ls := by
  have hempty : Ordered number [] := ⟨.nil, fun l hl => absurd hl List.not_mem_nil⟩
  exact run_invariant (P := fun number ls _ => Ordered number ls)
    (fun _ _ _ _ _ hP hstep => hP.step hstep) hempty h

/-! ## Templates -/

theorem ofSource_eq_ok_iff {source : String} {t : Template} :
    Template.ofSource source = .ok t ↔
      ∃ blocks, start.run 1 (linesOf source) = .ok (t.lines, ⟨blocks, none⟩) ∧
        t.lineCount = (linesOf source).length ∧ t.ending = LineEnding.ofText source := by
  obtain ⟨lines, lineCount, ending⟩ := t
  rw [Template.ofSource]
  constructor
  · intro h
    split at h
    · cases h
    · cases h
    · rename_i ls blocks hrun
      cases h
      exact ⟨blocks, hrun, rfl, rfl⟩
  · rintro ⟨blocks, hrun, rfl, rfl⟩
    simp only [hrun]

end MailTemplate.Reader
