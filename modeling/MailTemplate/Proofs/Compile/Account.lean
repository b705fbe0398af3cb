import MailTemplate.Proofs.Compile.Braces
import MailTemplate.Proofs.Template.Spans

/-!
# Every line of the source is accounted for

The lines of a template are in the order of the source, and a line of the source is left out only where a
code block has nothing on it. Text outside of blocks is its whole line; the lines of a block stand together,
between the lines where the block begins and ends (`Template.ofSource_accounts`).
-/

namespace MailTemplate

open Text Reader

variable {source : String} {t : Template} {l : Line} {number : Nat}

/-! ## Lines of the source and of the template -/

/-- The reader comes to every line of the source. -/
theorem Reader.passes_of_le (ht : Template.ofSource source = .ok t) (hpos : 1 ≤ number)
    (hle : number ≤ t.lineCount) :
    ∃ line r o r', Passes source number line r o r' ∧ ∀ l ∈ o, l ∈ t.lines := by
  obtain ⟨blocks, hrun, hcount, _⟩ := Reader.ofSource_eq_ok_iff.1 ht
  obtain ⟨i, rfl⟩ := Nat.exists_eq_add_of_le' hpos
  have hlt : i < (linesOf source).length := by omega
  have hlines : linesOf source =
      (linesOf source).take i ++ (linesOf source)[i] :: (linesOf source).drop (i + 1) := by
    rw [← List.drop_eq_getElem_cons hlt, List.take_append_drop]
  have hlength : ((linesOf source).take i).length = i := List.length_take_of_le (Nat.le_of_lt hlt)
  rw [hlines] at hrun
  obtain ⟨ls, r, after, hfront, hrest, hls⟩ := run_append_eq_ok_iff.1 hrun
  rw [hlength, Nat.add_comm 1] at hrest
  obtain ⟨o, r', more, hstep, _, rfl⟩ := run_cons_eq_ok_iff.1 hrest
  refine ⟨_, r, o, r', ⟨hstep, _, _, ls, hlines, by rw [hlength], hfront⟩, fun l hl => ?_⟩
  rw [hls, List.mem_append, List.mem_append]
  exact .inr (.inl (Option.mem_toList.2 hl))

/-- Every line of a template was read off the line of the source with its number. -/
theorem Reader.passes_of_mem (ht : Template.ofSource source = .ok t) (hl : l ∈ t.lines) :
    ∃ line r r', Passes source l.number line r (some l) r' := by
  obtain ⟨blocks, hrun, _⟩ := Reader.ofSource_eq_ok_iff.1 ht
  obtain ⟨front, line, back, ls, r, r', hlines, hfront, hstep⟩ := mem_run hrun hl
  have hnumber : l.number = front.length + 1 := by
    rw [(step_steps hstep).number_eq rfl, Nat.add_comm]
  rw [Nat.add_comm 1, ← hnumber] at hstep
  exact ⟨line, r, r', hstep, front, back, ls, hlines, hnumber, hfront⟩

theorem Template.number_le (ht : Template.ofSource source = .ok t) (hl : l ∈ t.lines) :
    l.number ≤ t.lineCount := by
  obtain ⟨_, _, hcount, _⟩ := Reader.ofSource_eq_ok_iff.1 ht
  obtain ⟨_, _, _, h⟩ := passes_of_mem ht hl
  exact hcount ▸ h.number_le

/-! ## The order of blocks -/

theorem Sections.blocks_le {n : Nat} {ls : List Line} (h : Sections n ls) :
    ls.Pairwise fun l m => ∀ j ∈ l.block, ∀ k ∈ m.block, j ≤ k := by
  induction h with
  | nil => exact .nil
  | text number fragments _ ih =>
      exact List.pairwise_append.2 ⟨ih, List.pairwise_singleton .., by simp [Line.block]⟩
  | @block n ls ms hls hms _ ih =>
      refine List.pairwise_append.2 ⟨ih, List.pairwise_of_forall_mem_list ?_, ?_⟩
      · intro l hl m hm j hj k hk
        rw [hms l hl] at hj
        rw [hms m hm] at hk
        cases hj
        cases hk
        exact Nat.le_refl n
      · intro l hl m hm j hj k hk
        rw [hms m hm] at hk
        cases hk
        exact Nat.le_of_lt (hls.block_lt l hl j hj)

/-- The block of lines that are read together. -/
def Line.blockOf (g : List Line) : Option Nat := g.head?.bind Line.block

theorem Line.blockOf_eq_some_iff {g : List Line} {k : Nat} :
    blockOf g = some k ↔ ∃ l ms, g = l :: ms ∧ l.block = some k := by
  cases g <;> simp [blockOf]

theorem Template.blocks_increase (ht : Template.ofSource source = .ok t) :
    (t.groups.filterMap Line.blockOf).Pairwise (· < ·) := by
  obtain ⟨blocks, hrun, _⟩ := Reader.ofSource_eq_ok_iff.1 ht
  have hnumbers := List.pairwise_map.1 (run_ordered hrun).1
  have hblocks : t.lines.Pairwise fun l m => ∀ j ∈ l.block, ∀ k ∈ m.block, j ≤ k := by
    obtain ⟨lines, lineCount, ending⟩ := t
    cases run_sectioned hrun with
    | outside hls => exact hls.blocks_le
  have hboth := hnumbers.and hblocks
  rw [← List.flatten_splitBy (fun a b => a.block == b.block) t.lines, List.pairwise_flatten] at hboth
  refine List.pairwise_filterMap.2 (hboth.2.imp_of_mem ?_)
  intro g g' hg hg' hlt j hj k hk
  obtain ⟨l, ls, rfl, hl⟩ := Line.blockOf_eq_some_iff.1 hj
  obtain ⟨m, ms, rfl, hm⟩ := Line.blockOf_eq_some_iff.1 hk
  refine Nat.lt_of_le_of_ne ((hlt l List.mem_cons_self m List.mem_cons_self).2 j hl k hm) ?_
  -- two groups of one block would be the same lines, which are not before themselves
  rintro rfl
  obtain ⟨_, hblock, _⟩ := Template.isBlock_of_ofSource ht j
  have hsame := (hblock.group_eq hg List.mem_cons_self hl).trans
    (hblock.group_eq hg' List.mem_cons_self hm).symm
  exact Nat.lt_irrefl _ (hlt l List.mem_cons_self l (hsame ▸ List.mem_cons_self)).1

/-! ## What is left out, and what a text line is -/

theorem Reader.codeLine_eq_none_iff {cs : List Char} {k : Nat} :
    codeLine number cs k = none ↔ allBlank cs = true := by
  unfold codeLine
  split <;> simp_all

section Passes

variable {line : List Char} {r r' : Reader} {o : Option Line}

/-- A line of a block lies in it, with the lines where the block begins and ends. -/
theorem Reader.Enters.spans {b : OpenBlock} {blocks : Nat} (hb : r.Enters number b blocks)
    (ht : Template.ofSource source = .ok t) (h : Passes source number line r o r') (hr' : blocks = r'.blocks) :
    ∃ first last, Spans source b.index first last ∧ first ≤ number ∧ number ≤ last ∧
      (r.Begun b.index → first < number) ∧ (¬ r'.Ended b.index → number < last) := by
  obtain ⟨ls, hls⟩ := h.sectioned
  obtain ⟨hindex, hopen⟩ := hls.enters_index hb
  have hbegun : r'.Begun b.index := by
    rw [Begun, ← hr', hindex]
    exact Nat.lt_succ_self _
  exact Spans.around ht h hopen hbegun

/-- A line that gives nothing is in a block, where it is blank, or nothing is left of it beside the braces
that begin and end the block. -/
theorem Reader.Passes.of_none (h : Passes source number line r none r')
    (ht : Template.ofSource source = .ok t) :
    ∃ k first last, Spans source k first last ∧ first ≤ number ∧ number ≤ last ∧
      (allBlank line = true ∨ r.Scannable line ∧ ∃ scan,
        scanCode r.depth none (r.scanned line) = .ok scan ∧ allBlank (scan.code (r.scanned line)) = true) := by
  generalize ho : (none : Option Line) = o at h
  cases step_gives h.step with
  | outer | inner => cases ho
  | @blank b hr hblank =>
      obtain ⟨first, last, hspans, hle, hle', _⟩ := (Enters.inside hr).spans ht h rfl
      exact ⟨b.index, first, last, hspans, hle, hle', .inl hblank⟩
  | @closing b blocks before after hb hmarker hscan =>
      obtain ⟨first, last, hspans, hle, hle', _⟩ := hb.spans ht h rfl
      exact ⟨b.index, first, last, hspans, hle, hle',
        .inr ⟨hmarker, _, hscan, codeLine_eq_none_iff.1 ho.symm⟩⟩
  | @code b blocks depth last hb hmarker hscan =>
      obtain ⟨first, last, hspans, hle, hle', _⟩ := hb.spans ht h rfl
      exact ⟨b.index, first, last, hspans, hle, hle',
        .inr ⟨hmarker, _, hscan, codeLine_eq_none_iff.1 ho.symm⟩⟩

theorem Reader.Passes.of_outer (h : Passes source number line r (some l) r') (hl : l.block = none) :
    ∃ fragments, Fragment.ofLine line = .ok fragments ∧ l = .text number fragments none := by
  generalize ho : some l = o at h
  cases step_gives h.step with
  | outer _ hfragments =>
      cases ho
      exact ⟨_, hfragments, rfl⟩
  | inner =>
      cases ho
      cases hl
  | blank => cases ho
  | closing | code =>
      rw [block_of_codeLine ho.symm] at hl
      cases hl

/-- A line of a block lies in it, and a text line is neither the first line nor the last. -/
theorem Reader.Passes.of_block {k : Nat} (h : Passes source number line r (some l) r')
    (ht : Template.ofSource source = .ok t) (hl : l.block = some k) :
    ∃ first last, Spans source k first last ∧ first ≤ number ∧ number ≤ last ∧
      ((∃ fragments, l = .text number fragments (some k)) → first < number ∧ number < last) := by
  generalize ho : some l = o at h
  cases step_gives h.step with
  | outer =>
      cases ho
      cases hl
  | blank => cases ho
  | @inner b cs fragments hr =>
      cases ho
      cases hl
      obtain ⟨ls, hls⟩ := h.sectioned
      obtain ⟨first, last, hspans, hle, hle', hlt, hlt'⟩ := (Enters.inside hr).spans ht h rfl
      have hbegun : r.Begun b.index := by
        rw [Begun, hls.index_eq b hr]
        exact Nat.lt_succ_self _
      exact ⟨first, last, hspans, hle, hle', fun _ => ⟨hlt hbegun, hlt' fun hended => hended.2 b hr rfl⟩⟩
  | closing hb | code hb =>
      obtain ⟨first, last, hspans, hle, hle', _⟩ := hb.spans ht h rfl
      rw [block_of_codeLine ho.symm] at hl
      cases hl
      refine ⟨first, last, hspans, hle, hle', ?_⟩
      rintro ⟨fragments, rfl⟩
      unfold codeLine at ho
      split at ho <;> cases ho

end Passes

/-- What the lines of the template `t` say of the lines of its source. -/
structure Template.Accounts (source : String) (t : Template) : Prop where
  ordered : (t.lines.map Line.number).Pairwise (· < ·)
  numbered : ∀ l ∈ t.lines, 1 ≤ l.number ∧ l.number ≤ t.lineCount
  /-- Nothing is lost: a line of the source that is left out is one of a block, and is blank there or holds
  nothing beside the marker in front and the brace that closes the block with what stands behind it. -/
  complete : ∀ n, 1 ≤ n → n ≤ t.lineCount → (∀ l ∈ t.lines, l.number ≠ n) →
    ∃ k first last, Spans source k first last ∧ first ≤ n ∧ n ≤ last ∧
      ∃ line r r', Passes source n line r none r' ∧
        (allBlank line = true ∨ r.Scannable line ∧ ∃ scan,
          scanCode r.depth none (r.scanned line) = .ok scan ∧ allBlank (scan.code (r.scanned line)) = true)
  /-- Outside of blocks there are text lines, each of them a whole line of the source. -/
  outer : ∀ l ∈ t.lines, l.block = none → ∃ line fragments, (linesOf source)[l.number - 1]? = some line ∧
    Fragment.ofLine line = .ok fragments ∧ l = .text l.number fragments none
  together : ∀ k, IsBlock k t.lines (t.lines.filter (·.block == some k))
  increasing : (t.groups.filterMap Line.blockOf).Pairwise (· < ·)
  inside : ∀ l ∈ t.lines, ∀ k, l.block = some k →
    ∃ first last, Spans source k first last ∧ first ≤ l.number ∧ l.number ≤ last
  /-- A block begins at a line with the marker of blocks in front, and ends at one with the brace that
  closes it. -/
  bounds : ∀ k first last, Spans source k first last →
    (∃ line rest, (linesOf source)[first - 1]? = some line ∧ trimStart line = '@' :: '{' :: rest) ∧
    ∃ line r o r' before after, Passes source last line r o r' ∧
      scanCode r.depth none (r.scanned line) = .ok (.closed before after)
  /-- Text within a block stands behind the line where the block begins and before the one where it ends;
  it is not the last line, and a newline ends it. -/
  inner : ∀ n fragments k, .text n fragments (some k) ∈ t.lines →
    (∀ first last, Spans source k first last → first < n ∧ n < last) ∧ n < t.lineCount ∧
      (Line.text n fragments (some k)).pieces t.lineCount =
        (fragments.mapM (Fragment.toInstruction n)).map fun output => [.text n (output ++ [.newline n])]

theorem Spans.last_le {k first last : Nat} (h : Spans source k first last) :
    last ≤ (linesOf source).length := by
  obtain ⟨_, _, _, _, hline, _⟩ := h.closes
  exact hline.number_le

/-- Text within a block is not on the last line of the source. -/
theorem Template.lt_of_inner {k : Nat} {fragments : List Fragment} (ht : Template.ofSource source = .ok t)
    (hl : .text number fragments (some k) ∈ t.lines) :
    ∃ first last, Spans source k first last ∧ first < number ∧ number < last ∧ number < t.lineCount := by
  obtain ⟨_, _, hcount, _⟩ := Reader.ofSource_eq_ok_iff.1 ht
  obtain ⟨line, r, r', h⟩ := passes_of_mem ht hl
  obtain ⟨first, last, hspans, _, _, hlt⟩ := h.of_block ht rfl
  obtain ⟨hlt, hlt'⟩ := hlt ⟨fragments, rfl⟩
  exact ⟨first, last, hspans, hlt, hlt', hcount ▸ Nat.lt_of_lt_of_le hlt' hspans.last_le⟩

/-- A template has a line for every line of its source, except where a code block has nothing. -/
theorem Template.ofSource_accounts (ht : Template.ofSource source = .ok t) : t.Accounts source := by
  obtain ⟨blocks, hrun, _⟩ := Reader.ofSource_eq_ok_iff.1 ht
  constructor
  case ordered => exact (run_ordered hrun).1
  case numbered =>
    intro l hl
    obtain ⟨line, r, r', h⟩ := passes_of_mem ht hl
    exact ⟨h.number_pos, number_le ht hl⟩
  case complete =>
    intro n hpos hle hnone
    obtain ⟨line, r, o, r', h, ho⟩ := passes_of_le ht hpos hle
    cases o with
    | some l => exact absurd ((step_steps h.step).number_eq rfl) (hnone l (ho l rfl))
    | none =>
        obtain ⟨k, first, last, hspans, hle, hle', hblank⟩ := h.of_none ht
        exact ⟨k, first, last, hspans, hle, hle', line, r, r', h, hblank⟩
  case outer =>
    intro l hl hnone
    obtain ⟨line, r, r', h⟩ := passes_of_mem ht hl
    obtain ⟨fragments, hfragments, hl⟩ := h.of_outer hnone
    exact ⟨line, fragments, h.getElem?, hfragments, hl⟩
  case together =>
    intro k
    obtain ⟨ms, hms, _⟩ := isBlock_of_ofSource ht k
    rwa [hms.filter_eq]
  case increasing => exact blocks_increase ht
  case inside =>
    intro l hl k hk
    obtain ⟨line, r, r', h⟩ := passes_of_mem ht hl
    obtain ⟨first, last, hspans, hle, hle', _⟩ := h.of_block ht hk
    exact ⟨first, last, hspans, hle, hle'⟩
  case bounds => exact fun k first last h => ⟨h.marker, h.brace⟩
  case inner =>
    intro n fragments k hl
    obtain ⟨first, last, hspans, hlt, hlt', hn⟩ := lt_of_inner ht hl
    refine ⟨fun first' last' hspans' => ?_, hn, ?_⟩
    · obtain ⟨rfl, rfl⟩ := hspans.unique hspans'
      exact ⟨hlt, hlt'⟩
    · have hnot : (n == t.lineCount) = false := beq_eq_false_iff_ne.2 (Nat.ne_of_lt hn)
      rw [Line.pieces, textInstructions, hnot]
      cases fragments.mapM (Fragment.toInstruction n) <;> rfl

/-- A line of text before a block that has one too, and is closed on a line of its own. -/
theorem Template.ofSource_accounts_block :
    ∃ t, Template.ofSource "a\n@\x7b x = y;\n@:b\n\x7d" = .ok t ∧
      t.lines = [.text 1 [.literal "a"] none, .code 2 " x = y;" 0, .text 3 [.literal "b"] (some 0)] ∧
      t.Accounts "a\n@\x7b x = y;\n@:b\n\x7d" := by
  have hlines : linesOf "a\n@\x7b x = y;\n@:b\n\x7d" =
      ["a".toList, "@\x7b x = y;".toList, "@:b".toList, "\x7d".toList] := by decide
  have ht : Template.ofSource "a\n@\x7b x = y;\n@:b\n\x7d" =
      .ok ⟨[.text 1 [.literal "a"] none, .code 2 " x = y;" 0, .text 3 [.literal "b"] (some 0)], 4, .lf⟩ := by
    refine Reader.ofSource_eq_ok_iff.2 ⟨1, ?_, by decide, by decide⟩
    rw [hlines]
    cbv
  exact ⟨_, ht, rfl, ofSource_accounts ht⟩

end MailTemplate
