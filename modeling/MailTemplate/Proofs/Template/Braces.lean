import MailTemplate.Proofs.Template.Scan

/-!
# Braces of code blocks

The lines of a template come in sections, of which the code blocks are balanced
(`ofSource_sections`). A code line holds the tokens that were passed when the line was scanned
(`ofSource_code`).
-/

namespace MailTemplate

open Text

/-- The tokens of the code lines among some lines. -/
def codeTokens (ls : List Line) : List Token :=
  ls.flatMap fun
    | .code _ text _ => ((tokens text.toList).toOption).getD []
    | .text .. => []

@[simp]
theorem codeTokens_append (ls ms : List Line) : codeTokens (ls ++ ms) = codeTokens ls ++ codeTokens ms :=
  List.flatMap_append

/-- Lines outside of blocks, with the lines of the blocks from the first one on in between. -/
inductive Sections : Nat → List Line → Prop
  | nil : Sections 0 []
  | text {n ls} (number : Nat) (fragments : List Fragment) : Sections n ls →
      Sections n (ls ++ [.text number fragments none])
  | block {n ls ms} : Sections n ls → (∀ m ∈ ms, m.block = some n) → Balanced (codeTokens ms) →
      Sections (n + 1) (ls ++ ms)

namespace Reader

variable {r r' : Reader} {b : OpenBlock} {number : Nat} {line : List Char} {ls : List Line}
  {o : Option Line}

/-- Lines of the open block `b`, behind which as many braces are open as its depth tells. -/
structure LinesOf (b : OpenBlock) (ms : List Line) : Prop where
  block : ∀ m ∈ ms, m.block = some b.index
  staysOpen : StaysOpen 1 (codeTokens ms)
  depth : depthBehind 1 (codeTokens ms) = b.depth

/-- Sections of lines, and the lines of the open block behind them. -/
inductive Sectioned : List Line → Reader → Prop
  | outside {n ls} : Sections n ls → Sectioned ls ⟨n, none⟩
  | inside {front ms b} : Sections b.index front → LinesOf b ms →
      Sectioned (front ++ ms) ⟨b.index + 1, some b⟩

theorem LinesOf.depth_pos {ms : List Line} (h : LinesOf b ms) : 0 < b.depth := by
  rw [← h.depth]
  exact h.staysOpen.depthBehind_pos

theorem linesOf_opening (number k : Nat) : LinesOf ⟨1, number, k, false, false⟩ [] :=
  ⟨by simp, staysOpen_nil.2 Nat.one_pos, rfl⟩

theorem Sectioned.enters {blocks : Nat} (h : Sectioned ls r) (hb : r.Enters number b blocks) :
    ∃ front ms, ls = front ++ ms ∧ Sections b.index front ∧ LinesOf b ms ∧ blocks = b.index + 1 := by
  cases h with
  | outside hls =>
      cases hb with
      | inside hr => cases hr
      | opening hr => exact ⟨ls, [], (List.append_nil ls).symm, hls, linesOf_opening _ _, rfl⟩
  | inside hfront hms =>
      cases hb with
      | inside hr =>
          cases hr
          exact ⟨_, _, rfl, hfront, hms, rfl⟩
      | opening hr => cases hr

theorem codeTokens_codeLine {cs : List Char} {ts : List Token} {k : Nat} (h : tokens cs = .ok ts) :
    codeTokens (codeLine number cs k).toList = ts := by
  unfold codeLine
  split
  · rename_i hblank
    rw [tokens_of_nothing (Lexeme.next?_of_nothing (.inl hblank))] at h
    cases h
    rfl
  · simp [codeTokens, String.toList_ofList, h, Except.toOption]

/-- A code line goes on with the lines of its block. -/
theorem LinesOf.scanned {ms : List Line} {cs : List Char} {scan : CodeScan} (h : LinesOf b ms)
    (hscan : scanCode b.depth none cs = .ok scan) (number : Nat) (continued pending : Bool) :
    LinesOf { b with depth := scan.depth, continued, pending }
      (ms ++ (codeLine number (scan.code cs) b.index).toList) := by
  obtain ⟨htokens, hdepth⟩ := tokens_code h.depth_pos hscan
  have hopen := staysOpen_passedTokens h.depth_pos cs
  have hcode : codeTokens (codeLine number (scan.code cs) b.index).toList = passedTokens b.depth cs :=
    codeTokens_codeLine htokens
  constructor
  · intro m hm
    rcases List.mem_append.1 hm with hm | hm
    · exact h.block m hm
    · exact block_of_codeLine (Option.mem_toList.1 hm)
  · rw [codeTokens_append, hcode]
    refine staysOpen_append.2 ⟨h.staysOpen, ?_⟩
    rwa [h.depth]
  · rw [codeTokens_append, hcode, h.staysOpen.depthBehind_append, h.depth, hdepth]

/-- A text line goes on with the lines of its block. -/
theorem LinesOf.text {ms : List Line} (h : LinesOf b ms) (number : Nat) (fragments : List Fragment) :
    LinesOf b (ms ++ [.text number fragments (some b.index)]) := by
  refine ⟨?_, by simpa [codeTokens] using h.staysOpen, by simpa [codeTokens] using h.depth⟩
  intro m hm
  rcases List.mem_append.1 hm with hm | hm
  · exact h.block m hm
  · rw [List.mem_singleton.1 hm]
    rfl

theorem Sectioned.step (h : Sectioned ls r) (hstep : Steps r number o r') :
    Sectioned (ls ++ o.toList) r' := by
  cases hstep with
  | blank =>
      rw [Option.toList_none, List.append_nil]
      exact h
  | @text _ fragments =>
      cases h with
      | outside hls => exact .outside (.text number fragments hls)
      | inside hfront hms =>
          rw [List.append_assoc]
          exact .inside hfront (hms.text number fragments)
  | closing hb hscan =>
      obtain ⟨front, ms, rfl, hfront, hms, rfl⟩ := h.enters hb
      have hclosed := hms.scanned hscan number false false
      rw [List.append_assoc]
      exact .outside (.block hfront hclosed.block (hclosed.staysOpen.balanced hclosed.depth))
  | @code b _ _ depth last hb hscan =>
      obtain ⟨front, ms, rfl, hfront, hms, rfl⟩ := h.enters hb
      have hopened : LinesOf (afterCode b depth last) _ := hms.scanned hscan number _ _
      rw [List.append_assoc]
      exact .inside (b := afterCode b depth last) hfront hopened

theorem run_sectioned {lines : List (List Char)} (h : start.run 1 lines = .ok (ls, r)) :
    Sectioned ls r :=
  run_invariant (P := fun _ ls r => Sectioned ls r) (fun _ _ _ _ _ hP hstep => hP.step hstep)
    (.outside .nil) h

/-- Behind any lines the open block has an open brace. -/
theorem run_open_depth_pos {lines : List (List Char)} (h : start.run 1 lines = .ok (ls, r))
    (hb : b ∈ r.current) : 0 < b.depth := by
  have hls := run_sectioned h
  cases hls with
  | outside => cases hb
  | inside _ hms =>
      cases hb
      exact hms.depth_pos

/-! ## Where a code line comes from -/

/-- A line that a run gives was read off one of its lines. -/
theorem mem_run {lines : List (List Char)} {l : Line} (h : r.run number lines = .ok (ls, r'))
    (hl : l ∈ ls) :
    ∃ front line back before mid mid', lines = front ++ line :: back ∧
      r.run number front = .ok (before, mid) ∧
      mid.step (number + front.length) line = .ok (some l, mid') := by
  induction lines generalizing r number ls with
  | nil =>
      rw [run] at h
      cases h
      cases hl
  | cons first lines ih =>
      obtain ⟨o, mid, more, ho, hmore, rfl⟩ := run_cons_eq_ok_iff.1 h
      rcases List.mem_append.1 hl with hl | hl
      · obtain rfl : o = some l := Option.mem_toList.1 hl
        exact ⟨[], first, lines, [], r, mid, rfl, rfl, ho⟩
      · obtain ⟨front, line, back, before, at', mid', rfl, hfront, hstep⟩ := ih hmore hl
        refine ⟨first :: front, line, back, _, at', mid', rfl,
          run_cons_eq_ok_iff.2 ⟨o, mid, before, ho, hfront, rfl⟩, ?_⟩
        rwa [List.length_cons, ← Nat.add_assoc, Nat.add_right_comm]

/-- A step gives a code line that was scanned, with what the scan left to the block. -/
def Scans (r : Reader) (number : Nat) (line : List Char) (o : Option Line) : Prop :=
  ∀ n text k, o = some (.code n text k) → n = number ∧ ∃ scan,
    scanCode r.depth none (r.scanned line) = .ok scan ∧ text = String.ofList (scan.code (r.scanned line))

theorem codeLine_scans {cs : List Char} {k : Nat} {scan : CodeScan}
    (hscan : scanCode r.depth none (r.scanned line) = .ok scan)
    (hcs : scan.code (r.scanned line) = cs) : r.Scans number line (codeLine number cs k) := by
  intro n text _ hl
  unfold codeLine at hl
  split at hl
  · cases hl
  · cases hl
    exact ⟨rfl, scan, hscan, by rw [hcs]⟩

theorem step_scans (h : r.step number line = .ok (o, r')) : r.Scans number line o := by
  cases step_gives h with
  | outer | inner | blank => nofun
  | closing _ _ hscan => exact codeLine_scans hscan rfl
  | code _ _ hscan => exact codeLine_scans hscan rfl

theorem run_depth_pos {lines : List (List Char)} (h : start.run 1 lines = .ok (ls, r)) :
    0 < r.depth := by
  unfold depth
  split
  · exact run_open_depth_pos h ‹_›
  · exact Nat.one_pos

end Reader

/-! ## The lines of a block -/

section Blocks

variable {n k : Nat} {ls : List Line}

theorem Sections.block_lt (h : Sections n ls) : ∀ l ∈ ls, ∀ k ∈ l.block, k < n := by
  induction h with
  | nil => nofun
  | text number fragments _ ih =>
      intro l hl k hk
      rcases List.mem_append.1 hl with hl | hl
      · exact ih l hl k hk
      · rw [List.mem_singleton.1 hl] at hk
        cases hk
  | block _ hms _ ih =>
      intro l hl k hk
      rcases List.mem_append.1 hl with hl | hl
      · exact Nat.lt_succ_of_lt (ih l hl k hk)
      · rw [hms l hl] at hk
        cases hk
        exact Nat.lt_succ_self _

/-- Among `ls`, the lines `ms` are those of the block `k`, and stand together. -/
structure IsBlock (k : Nat) (ls ms : List Line) : Prop where
  block : ∀ m ∈ ms, m.block = some k
  together : ∃ front back, ls = front ++ (ms ++ back) ∧ ∀ l ∈ front ++ back, l.block ≠ some k

theorem IsBlock.append {ms more : List Line} (h : IsBlock k ls ms) (hmore : ∀ l ∈ more, l.block ≠ some k) :
    IsBlock k (ls ++ more) ms := by
  obtain ⟨hms, front, back, rfl, hothers⟩ := h
  refine ⟨hms, front, back ++ more, by simp, ?_⟩
  rw [← List.append_assoc]
  exact List.forall_mem_append.2 ⟨hothers, hmore⟩

theorem Sections.isBlock (h : Sections n ls) (k : Nat) :
    ∃ ms, IsBlock k ls ms ∧ Balanced (codeTokens ms) := by
  induction h with
  | nil =>
      exact ⟨[], ⟨nofun, [], [], rfl, nofun⟩, balanced_nil⟩
  | text number fragments _ ih =>
      obtain ⟨ms, hblock, hbalanced⟩ := ih
      refine ⟨ms, hblock.append ?_, hbalanced⟩
      simp [Line.block]
  | @block n ls ms hls hms hbalanced ih =>
      by_cases hk : k = n
      · subst hk
        refine ⟨ms, ⟨hms, ls, [], by simp, ?_⟩, hbalanced⟩
        rw [List.append_nil]
        intro l hl hblock
        exact Nat.lt_irrefl k (hls.block_lt l hl k hblock)
      · obtain ⟨ms', hblock, hbalanced'⟩ := ih
        refine ⟨ms', hblock.append ?_, hbalanced'⟩
        intro m hm
        rw [hms m hm]
        exact fun h => hk (Option.some.inj h).symm

end Blocks

end MailTemplate
