import MailTemplate.Program
import MailTemplate.Proofs.Template.Comments
import Mathlib

/-!
# The open block of a reader

What the lines read so far tell of the block that is still open (`run_reached`): its number, and the
unfinished statement that it ends with when its flag says so.
-/

namespace MailTemplate

open Text

/-! ## The tokens of a scanned line -/

theorem Lexeme.induction {P : List Char → Prop}
    (step : ∀ cs, (∀ l rest, next? cs = .ok (some (l, rest)) → P rest) → P cs) (cs : List Char) :
    P cs :=
  step cs fun l rest h =>
    have := length_of_next? h
    Lexeme.induction step rest
termination_by cs.length

theorem tokens_of_next? {cs rest : List Char} {l : Lexeme} {ts : List Token}
    (hnext : Lexeme.next? cs = .ok (some (l, rest))) (h : tokens rest = .ok ts) :
    tokens cs = .ok (l.token :: ts) := by
  obtain ⟨ls, hls, rfl⟩ := map_eq_ok_iff.1 h
  rw [tokens, Lexeme.all.eq_def]
  split
  · rename_i he
    rw [hnext] at he
    cases he
  · rename_i he
    rw [hnext] at he
    cases he
  · rename_i he
    rw [hnext] at he
    cases he
    simp only [hls]
    rfl

theorem scanCode_of_next? {depth d : Nat} {last last' : Option Token} {cs rest : List Char} {l : Lexeme}
    (hnext : Lexeme.next? cs = .ok (some (l, rest)))
    (h : scanCode depth last cs = .ok (.opened d last')) :
    ∃ depth', scanCode depth' (some l.token) rest = .ok (.opened d last') := by
  have hgo {depth' : Nat} {front : List Char}
      (h : (scanCode depth' (some l.token) rest).map (CodeScan.after front) =
        .ok (CodeScan.opened d last')) :
      ∃ depth', scanCode depth' (some l.token) rest = .ok (.opened d last') := by
    obtain ⟨scan, hscan, h⟩ := map_eq_ok_iff.1 h
    cases scan with
    | closed => cases h
    | opened =>
        cases h
        exact ⟨depth', hscan⟩
  rw [scanCode.eq_def] at h
  split at h
  · cases h
  · rename_i he
    rw [hnext] at he
    cases he
  · rename_i he
    rw [hnext] at he
    cases he
    simp only at h
    split at h
    · exact hgo h
    · split at h
      · cases h
      · exact hgo h
    · exact hgo h

/-- A line of code that leaves its block open can be read, and ends with the token it tells. -/
theorem scanCode_opened {depth d : Nat} {last last' : Option Token} {cs : List Char}
    (h : scanCode depth last cs = .ok (.opened d last')) :
    ∃ ts, tokens cs = .ok ts ∧ last' = ts.getLast?.or last := by
  induction cs using Lexeme.induction generalizing depth last with
  | step cs ih =>
      cases hnext : Lexeme.next? cs with
      | error e =>
          rw [scanCode.eq_def] at h
          split at h
          · cases h
          · rename_i he
            rw [hnext] at he
            cases he
          · rename_i he
            rw [hnext] at he
            cases he
      | ok next =>
          cases next with
          | none =>
              rw [scanCode_of_nothing hnext] at h
              cases h
              exact ⟨[], tokens_of_nothing hnext, rfl⟩
          | some next =>
              obtain ⟨l, rest⟩ := next
              obtain ⟨depth', hrest⟩ := scanCode_of_next? hnext h
              obtain ⟨ts, hts, rfl⟩ := ih l rest hnext hrest
              refine ⟨_, tokens_of_next? hnext hts, ?_⟩
              cases ts with
              | nil => rfl
              | cons t ts =>
                  rw [List.getLast?_cons_cons, List.getLast?_eq_some_getLast (List.cons_ne_nil t ts)]
                  rfl

/-! ## What a run keeps -/

/-- A code line of the block `k` that leaves a statement open. -/
def Line.Unfinished (k : Nat) (l : Line) : Prop :=
  ∃ number cs ts t, l = .code number cs k ∧ tokens cs.toList = .ok ts ∧ ts.getLast? = some t ∧
    t.endsStatement = false

/-- The last code line leaves a statement of the block `k` open, and only text lines follow. -/
def EndsUnfinished (k : Nat) (ls : List Line) : Prop :=
  ∃ front l texts, ls = front ++ l :: texts ∧ l.Unfinished k ∧
    ∀ t ∈ texts, ∃ number fragments, t = .text number fragments (some k)

theorem EndsUnfinished.text {k number : Nat} {ls : List Line} {fragments : List Fragment}
    (h : EndsUnfinished k ls) : EndsUnfinished k (ls ++ [.text number fragments (some k)]) := by
  obtain ⟨front, l, texts, rfl, hl, htexts⟩ := h
  refine ⟨front, l, texts ++ [.text number fragments (some k)], by simp, hl, ?_⟩
  intro t ht
  rcases List.mem_append.1 ht with ht | ht
  · exact htexts t ht
  · exact ⟨number, fragments, List.mem_singleton.1 ht⟩

theorem Token.endsStatement_of_expectsMore {t : Token} (h : t.expectsMore = true) :
    t.endsStatement = false := by
  cases t with
  | keyword k =>
      revert h
      cases k <;> decide
  | symbol s =>
      revert h
      cases s <;> decide
  | ident | number | string => rfl

namespace Reader

/-- What holds of the reader behind lines that gave `ls`, before the line `number`. -/
structure Reached (number : Nat) (ls : List Line) (r : Reader) : Prop where
  index : ∀ b ∈ r.current, b.index + 1 = r.blocks
  openedAt : ∀ b ∈ r.current, b.openedAt < number
  continued : ∀ b ∈ r.current, b.continued = true → b.pending = true
  blocks : ∀ l ∈ ls, ∀ k ∈ l.block, k < r.blocks
  pending : ∀ b ∈ r.current, b.pending = true → EndsUnfinished b.index ls

variable {r r' : Reader} {b : OpenBlock} {number : Nat} {ls : List Line} {o : Option Line}

theorem reached_start : Reached 1 [] start := by
  constructor <;> nofun

theorem Reached.enters {blocks : Nat} (h : Reached number ls r) (hb : r.Enters number b blocks) :
    b.index + 1 = blocks ∧ b.openedAt ≤ number ∧ r.blocks ≤ blocks := by
  cases hb with
  | inside hr => exact ⟨h.index b hr, Nat.le_of_lt (h.openedAt b hr), Nat.le_refl _⟩
  | opening hr => exact ⟨rfl, Nat.le_refl _, Nat.le_succ _⟩

theorem block_of_codeLine {cs : List Char} {k : Nat} {l : Line} (h : l ∈ codeLine number cs k) :
    l.block = some k := by
  unfold codeLine at h
  split at h
  · cases h
  · cases h
    rfl

/-- A code line belongs to the block it enters, and so does none of a later block. -/
theorem Reached.blocks_codeLine {blocks : Nat} {cs : List Char} (h : Reached number ls r)
    (hb : r.Enters number b blocks) :
    ∀ l ∈ ls ++ (codeLine number cs b.index).toList, ∀ k ∈ l.block, k < blocks := by
  obtain ⟨hindex, _, hle⟩ := h.enters hb
  intro l hl k hk
  rcases List.mem_append.1 hl with hl | hl
  · exact Nat.lt_of_lt_of_le (h.blocks l hl k hk) hle
  · rw [block_of_codeLine (Option.mem_toList.1 hl)] at hk
    cases hk
    omega

theorem endsUnfinished_codeLine {depth d : Nat} {last : Option Token} {cs : List Char} {k : Nat}
    (hscan : scanCode depth none cs = .ok (.opened d last))
    (hlast : (last.any fun t => !t.endsStatement) = true) :
    EndsUnfinished k (ls ++ (codeLine number cs k).toList) := by
  obtain ⟨ts, hts, rfl⟩ := scanCode_opened hscan
  rw [Option.or_none] at hlast
  obtain ⟨t, ht, hopen⟩ := (Option.any_eq_true _ _).1 hlast
  have hblank : allBlank cs = false := by
    rw [← Bool.not_eq_true]
    intro hblank
    rw [tokens_of_nothing (Lexeme.next?_of_nothing (.inl hblank))] at hts
    cases hts
    cases ht
  rw [codeLine, if_neg (by rw [hblank]; exact Bool.false_ne_true)]
  refine ⟨ls, _, [], rfl, ⟨number, _, ts, t, rfl, ?_, ht, ?_⟩, List.forall_mem_nil _⟩
  · rwa [String.toList_ofList]
  · rwa [Bool.not_eq_true'] at hopen

theorem Reached.step (h : Reached number ls r) (hstep : Steps r number o r') :
    Reached (number + 1) (ls ++ o.toList) r' := by
  cases hstep with
  | text =>
      refine ⟨h.index, fun b hb => Nat.lt_succ_of_lt (h.openedAt b hb), h.continued, ?_, ?_⟩
      · intro l hl k hk
        rcases List.mem_append.1 hl with hl | hl
        · exact h.blocks l hl k hk
        · obtain rfl := List.mem_singleton.1 hl
          obtain ⟨b, hb, rfl⟩ := Option.map_eq_some_iff.1 hk
          have := h.index b hb
          omega
      · intro b hb hpending
        have hmap : r.current.map OpenBlock.index = some b.index := by rw [hb]; rfl
        rw [hmap]
        exact (h.pending b hb hpending).text
  | blank =>
      rw [Option.toList_none, List.append_nil]
      exact ⟨h.index, fun b hb => Nat.lt_succ_of_lt (h.openedAt b hb), h.continued, h.blocks, h.pending⟩
  | closing hb hscan =>
      exact ⟨nofun, nofun, nofun, h.blocks_codeLine hb, nofun⟩
  | code hb hscan =>
      obtain ⟨hindex, hopened, _⟩ := h.enters hb
      refine ⟨?_, ?_, ?_, h.blocks_codeLine hb, ?_⟩
      · rintro _ ⟨⟩
        exact hindex
      · rintro _ ⟨⟩
        exact Nat.lt_succ_of_le hopened
      · rintro _ ⟨⟩ hcontinued
        obtain ⟨t, ht, hmore⟩ := (Option.any_eq_true _ _).1 hcontinued
        refine (Option.any_eq_true _ _).2 ⟨t, ht, ?_⟩
        rw [Token.endsStatement_of_expectsMore hmore]
        rfl
      · rintro _ ⟨⟩ hpending
        exact endsUnfinished_codeLine hscan hpending

theorem run_reached {lines : List (List Char)} (h : start.run 1 lines = .ok (ls, r)) :
    Reached (1 + lines.length) ls r :=
  run_invariant (fun _ _ _ _ _ hP hstep => hP.step hstep) reached_start h

/-! ## Lines behind an open block -/

/-- No line is of a block before `m`, and no block before `m` is open or begins. -/
structure Since (m : Nat) (ls : List Line) (r : Reader) : Prop where
  lines : ∀ l ∈ ls, ∀ k ∈ l.block, m ≤ k
  current : ∀ b ∈ r.current, m ≤ b.index
  blocks : m ≤ r.blocks

theorem Since.enters {m blocks : Nat} (h : Since m ls r) (hb : r.Enters number b blocks) :
    m ≤ b.index ∧ m ≤ blocks := by
  cases hb with
  | inside hr => exact ⟨h.current b hr, h.blocks⟩
  | opening hr => exact ⟨h.blocks, Nat.le_succ_of_le h.blocks⟩

theorem Since.codeLine {m : Nat} {cs : List Char} {k : Nat} (h : Since m ls r) (hk : m ≤ k) :
    ∀ l ∈ ls ++ (codeLine number cs k).toList, ∀ j ∈ l.block, m ≤ j := by
  intro l hl j hj
  rcases List.mem_append.1 hl with hl | hl
  · exact h.lines l hl j hj
  · rw [block_of_codeLine (Option.mem_toList.1 hl)] at hj
    cases hj
    exact hk

theorem Since.step {m : Nat} (h : Since m ls r) (hstep : Steps r number o r') :
    Since m (ls ++ o.toList) r' := by
  cases hstep with
  | text =>
      refine ⟨?_, h.current, h.blocks⟩
      intro l hl k hk
      rcases List.mem_append.1 hl with hl | hl
      · exact h.lines l hl k hk
      · obtain rfl := List.mem_singleton.1 hl
        obtain ⟨b, hb, rfl⟩ := Option.map_eq_some_iff.1 hk
        exact h.current b hb
  | blank =>
      rw [Option.toList_none, List.append_nil]
      exact h
  | closing hb hscan =>
      obtain ⟨hindex, hblocks⟩ := h.enters hb
      exact ⟨h.codeLine hindex, nofun, hblocks⟩
  | code hb hscan =>
      obtain ⟨hindex, hblocks⟩ := h.enters hb
      refine ⟨h.codeLine hindex, ?_, hblocks⟩
      rintro _ ⟨⟩
      exact hindex

/-- Behind an open block all lines are of it or of later blocks, or of none. -/
theorem run_since {lines : List (List Char)} (hr : r.current = some b) (hblocks : b.index ≤ r.blocks)
    (h : r.run number lines = .ok (ls, r')) : ∀ l ∈ ls, ∀ k ∈ l.block, b.index ≤ k := by
  have hstart : Since b.index [] r := by
    refine ⟨nofun, ?_, hblocks⟩
    intro b' hb'
    rw [hr] at hb'
    cases hb'
    exact Nat.le_refl _
  exact (run_invariant (P := fun _ ls r => Since b.index ls r)
    (fun _ _ _ _ _ hP hstep => hP.step hstep) hstart h).lines

end Reader

end MailTemplate
