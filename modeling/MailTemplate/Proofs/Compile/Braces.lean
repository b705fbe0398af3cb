import MailTemplate.Proofs.Compile.Lines
import MailTemplate.Proofs.Grammar.Braces
import MailTemplate.Proofs.Template.Braces
import MailTemplate.Proofs.Template.Failures

/-!
# Braces of a template

The reader of lines and the reader of statements count the same braces: code lines hold the tokens
that were passed when they were scanned, and the code blocks are balanced, so that no block misses a
closing brace or has one too many (`ofSource_braces`).
-/

namespace MailTemplate

open Text

/-! ## Groups of balanced lines -/

section Groups

variable {k : Nat} {ls ms g : List Line}

theorem IsBlock.filter_eq (h : IsBlock k ls ms) : ls.filter (·.block == some k) = ms := by
  obtain ⟨hms, front, back, rfl, hothers⟩ := h
  obtain ⟨hfront, hback⟩ := List.forall_mem_append.1 hothers
  have hmid : ms.filter (·.block == some k) = ms := List.filter_eq_self.2 (by simpa using hms)
  have hempty {xs : List Line} (hxs : ∀ l ∈ xs, l.block ≠ some k) : xs.filter (·.block == some k) = [] :=
    List.filter_eq_nil_iff.2 (by simpa using hxs)
  rw [List.filter_append, List.filter_append, hmid, hempty hfront, hempty hback]
  simp

/-- A group that has a line of the block is the block. -/
theorem IsBlock.group_eq {l : Line} (h : IsBlock k ls ms)
    (hg : g ∈ ls.splitBy fun a b => a.block == b.block) (hl : l ∈ g) (hk : l.block = some k) : g = ms := by
  obtain ⟨hms, front, back, rfl, hothers⟩ := h
  obtain ⟨hfront, hback⟩ := List.forall_mem_append.1 hothers
  have hnot {xs : List Line} (hxs : ∀ l ∈ xs, l.block ≠ some k) :
      g ∉ xs.splitBy fun a b => a.block == b.block := by
    intro hg
    have hmem := List.mem_flatten.2 ⟨g, hg, hl⟩
    rw [List.flatten_splitBy] at hmem
    exact hxs l hmem hk
  by_cases hne : ms = []
  · subst hne
    exact absurd hg (hnot (by simpa using hothers))
  rw [List.splitBy_append, List.splitBy_append, List.splitBy_of_isChain hne (isChain_of_block hms)] at hg
  · simp only [List.mem_append, List.mem_singleton] at hg
    rcases hg with hg | hg | hg
    · exact absurd hg (hnot hfront)
    · exact hg
    · exact absurd hg (hnot hback)
  · intro a ha b hb
    rw [hms a (List.mem_of_getLast? ha)]
    exact beq_eq_false_iff_ne.2 (hback b (List.mem_of_mem_head? hb)).symm
  · intro a ha b hb
    obtain ⟨m, ms, rfl⟩ := List.exists_cons_of_ne_nil hne
    obtain rfl : m = b := by simpa using hb
    rw [hms m List.mem_cons_self]
    exact beq_eq_false_iff_ne.2 (hfront a (List.mem_of_getLast? ha))

theorem codeTokens_of_text (h : ∀ l ∈ ls, l.block = none) : codeTokens ls = [] := by
  refine List.flatMap_eq_nil_iff.2 fun l hl => ?_
  cases l with
  | text => rfl
  | code number text k => exact absurd (h _ hl) (Option.some_ne_none k)

/-- The lines that are read together are balanced. -/
theorem balanced_group (h : ∀ k, ∃ ms, IsBlock k ls ms ∧ Balanced (codeTokens ms))
    (hg : g ∈ ls.splitBy fun a b => a.block == b.block) : Balanced (codeTokens g) := by
  obtain ⟨l, rest, rfl⟩ := List.exists_cons_of_ne_nil (List.ne_nil_of_mem_splitBy hg)
  cases hk : l.block with
  | none =>
      have hrest := block_eq_of_isChain (List.isChain_of_mem_splitBy hg)
      rw [codeTokens_of_text (List.forall_mem_cons.2 ⟨hk, fun m hm => (hrest m hm).trans hk⟩)]
      exact balanced_nil
  | some k =>
      obtain ⟨ms, hms, hbalanced⟩ := h k
      rwa [hms.group_eq hg List.mem_cons_self hk]

end Groups

/-! ## The pieces of lines -/

section Pieces

variable {lineCount : Nat} {ls : List Line} {pss : List (List Piece)}

theorem pieces_tokensIn {l : Line} {ps : List Piece} (h : l.pieces lineCount = .ok ps) :
    tokensIn ps = codeTokens [l] := by
  cases l with
  | text number fragments b =>
      obtain ⟨output, _, rfl⟩ := pieces_text.1 h
      rfl
  | code number text k =>
      simp only [Line.pieces, Piece.ofCode] at h
      split at h
      · rename_i ts hts
        cases h
        simp [codeTokens, hts, tokensIn_map_token, Except.toOption]
      · cases h

theorem PiecesOf.tokensIn_flatten (h : PiecesOf lineCount ls pss) :
    tokensIn pss.flatten = codeTokens ls := by
  induction h with
  | nil => rfl
  | @cons l ps ls pss hl _ ih =>
      rw [List.flatten_cons, tokensIn_append, ih, pieces_tokensIn hl, ← codeTokens_append]
      rfl

theorem SyntaxError.not_unclosed {e : SyntaxError} (h : e.cause.InLine) : ¬ e.Unclosed := by
  intro hunclosed
  rw [hunclosed] at h
  exact h

theorem ofCode_misses (number : Nat) (cs : List Char) : MissesNoBrace (Piece.ofCode number cs) := by
  unfold Piece.ofCode
  split
  · exact failsOnly_ok
  · rename_i cause hcause
    exact failsOnly_error.2 (SyntaxError.not_unclosed (tokens_failsOnly cs cause hcause))

theorem Expr.ofText_misses (number : Nat) (cs : List Char) : MissesNoBrace (Expr.ofText number cs) := by
  refine (ofCode_misses number cs).bind fun ps _ => ?_
  refine (parseExpr_misses ps).bind fun ⟨(e, rest), _⟩ _ => ?_
  simp only
  split
  · exact failsOnly_pure
  · exact failsOnly_error.2 (not_unclosed_unexpected nofun)

theorem Line.pieces_misses (l : Line) : MissesNoBrace (l.pieces lineCount) := by
  cases l with
  | code number text k => exact ofCode_misses number text.toList
  | text number fragments b =>
      refine FailsOnly.bind (FailsOnly.bind (.mapM fun f _ => ?_) fun _ _ => failsOnly_pure)
        fun _ _ => failsOnly_pure
      cases f with
      | literal | reference => exact failsOnly_ok
      | expression text => exact (Expr.ofText_misses number text.toList).map

theorem compileGroup_misses (h : Balanced (codeTokens ls)) :
    MissesNoBrace (Line.compileGroup lineCount ls) := by
  refine FailsOnly.bind (.mapM fun l _ => l.pieces_misses) fun pss hpss => ?_
  refine parseBlock_misses ?_
  rw [EvenBraces, PiecesOf.tokensIn_flatten (mapM_eq_ok_iff.1 hpss)]
  exact h.total

end Pieces

/-! ## Templates -/

/-- The blocks of a template stand together, and are balanced. -/
theorem Template.isBlock_of_ofSource {source : String} {t : Template} (h : Template.ofSource source = .ok t)
    (k : Nat) : ∃ ms, IsBlock k t.lines ms ∧ Balanced (codeTokens ms) := by
  obtain ⟨lines, lineCount, ending⟩ := t
  obtain ⟨blocks, hrun, _⟩ := Reader.ofSource_eq_ok_iff.1 h
  cases Reader.run_sectioned hrun with
  | outside hls => exact hls.isBlock k

theorem Program.ofSource_misses (source : String) : MissesNoBrace (Program.ofSource source) := by
  have htemplate : MissesNoBrace (Template.ofSource source) := by
    refine (Template.ofSource_failsOnly source).mono ?_
    rintro e (h | ⟨n, hopen⟩)
    · exact SyntaxError.not_unclosed h
    · rw [SyntaxError.Unclosed, hopen]
      exact nofun
  refine FailsOnly.bind htemplate fun t ht => ?_
  refine FailsOnly.bind (.mapM fun g hg => ?_) fun _ _ => failsOnly_pure
  exact compileGroup_misses (balanced_group (Template.isBlock_of_ofSource ht) hg)

/-- The reader of lines and the reader of statements agree on the tokens and the braces of code blocks.
While a block is open so is a brace of it, also within a line that is scanned. What is kept of a code line
gives the tokens that the scan of the line passed before the brace that closes the block. The tokens of a
block are balanced, so that no closing brace is missing or left over. -/
theorem ofSource_braces (source : String) :
    (∀ n ls r, Reader.start.run 1 ((linesOf source).take n) = .ok (ls, r) →
      (∀ b, r.current = some b → 1 ≤ b.depth) ∧
        ∀ line, StaysOpen r.depth (passedTokens r.depth (r.scanned line))) ∧
    (∀ t, Template.ofSource source = .ok t →
      (∀ number text k, .code number text k ∈ t.lines →
        ∃ front line back ls r r', linesOf source = front ++ line :: back ∧
          Reader.start.run 1 front = .ok (ls, r) ∧
          r.step number line = .ok (some (.code number text k), r') ∧
          (Line.code number text k).pieces t.lineCount =
            .ok ((passedTokens r.depth (r.scanned line)).map (.token number))) ∧
      (∀ k, Balanced (codeTokens (t.lines.filter (·.block == some k)))) ∧
      ∀ g ∈ t.groups, ∀ pss, PiecesOf t.lineCount g pss → ∀ rest,
        LeftOver (Line.lastNumber g) pss.flatten rest → ¬ StartsWith (.symbol .closeBrace) rest) ∧
    ∀ line, Program.ofSource source ≠ .error ⟨line, .unexpectedEnd (.symbol .closeBrace)⟩ := by
  refine ⟨fun n ls r hrun => ⟨?_, ?_⟩, fun t ht => ⟨?_, ?_, ?_⟩, ?_⟩
  · intro b hb
    exact Reader.run_open_depth_pos hrun hb
  · intro line
    exact staysOpen_passedTokens (Reader.run_depth_pos hrun) _
  · intro number text k hl
    obtain ⟨blocks, hrun, _⟩ := Reader.ofSource_eq_ok_iff.1 ht
    obtain ⟨front, line, back, ls, r, r', hlines, hfront, hstep⟩ := Reader.mem_run hrun hl
    obtain ⟨hnumber, scan, hscan, rfl⟩ := Reader.step_scans hstep _ _ _ rfl
    obtain ⟨htokens, _⟩ := tokens_code (Reader.run_depth_pos hfront) hscan
    rw [← hnumber] at hstep
    refine ⟨front, line, back, ls, r, r', hlines, hfront, hstep, ?_⟩
    simp only [Line.pieces, Piece.ofCode, String.toList_ofList, htokens]
  · intro k
    obtain ⟨ms, hms, hbalanced⟩ := Template.isBlock_of_ofSource ht k
    rwa [hms.filter_eq]
  · intro g hg pss hpss rest hrest
    refine hrest.not_startsWith ?_
    rw [hpss.tokensIn_flatten]
    exact balanced_group (Template.isBlock_of_ofSource ht) hg
  · intro line h
    exact Program.ofSource_misses source _ h rfl

/-- A block with braces in a string and in a comment, which ends in the middle of a line. -/
theorem ofSource_braces_nested :
    ∃ t, Template.ofSource "@\x7b if (a) \x7b s = '\x7d'; // \x7d\n\x7d \x7d // b" = .ok t ∧
      t.lines.filter (·.block == some 0) =
        [.code 1 " if (a) \x7b s = '\x7d'; // \x7d" 0, .code 2 "\x7d " 0] ∧
      Balanced (codeTokens (t.lines.filter (·.block == some 0))) := by
  have hlines : linesOf "@\x7b if (a) \x7b s = '\x7d'; // \x7d\n\x7d \x7d // b" =
      ["@\x7b if (a) \x7b s = '\x7d'; // \x7d".toList, "\x7d \x7d // b".toList] := by decide
  have ht : Template.ofSource "@\x7b if (a) \x7b s = '\x7d'; // \x7d\n\x7d \x7d // b" =
      .ok ⟨[.code 1 " if (a) \x7b s = '\x7d'; // \x7d" 0, .code 2 "\x7d " 0], 2, .lf⟩ := by
    refine Reader.ofSource_eq_ok_iff.2 ⟨1, ?_, by decide, by decide⟩
    rw [hlines]
    cbv
  exact ⟨_, ht, rfl, ((ofSource_braces _).2.1 _ ht).2.1 0⟩

end MailTemplate
