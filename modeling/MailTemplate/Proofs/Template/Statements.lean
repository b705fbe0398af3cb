import MailTemplate.Proofs.Grammar.Braces
import MailTemplate.Proofs.Grammar.TextPlaces
import MailTemplate.Proofs.Template.Breaks

/-!
# Lines of whole statements

The reader of lines looks at the first two tokens of a line in a block, the reader of statements at all of them. What
the second takes for statements, the first takes for code: statements start as code does (`StatementsForm.startsCode`),
close no brace that is not theirs (`StatementsForm.pairedBraces`), and leave no statement open behind them
(`StatementsForm.fits`). So a line of whole statements is kept in any block, and leaves the block as it finds it but
for a statement that was not ended before (`Reader.statements_taken`).
-/

namespace MailTemplate

open Text

/-! ## How statements start -/

theorem startsCode_cons {t : Token} (hstarts : t.startsStatement = true) (hparen : t.takesParen = false)
    (ts : List Token) : StartsCode (t :: ts) := by
  cases ts with
  | nil => exact hstarts
  | cons u us =>
      refine .inl ⟨hstarts, fun htakes => ?_⟩
      rw [hparen] at htakes
      cases htakes

theorem ConditionForm.startsInParen {ps : List Piece} {e : Expr} (h : ConditionForm ps e) :
    StartsWith (.symbol .openParen) ps := by
  cases h
  exact ⟨_, _, rfl⟩

theorem ForHeadForm.startsInParen {ps : List Piece} {head : ForHead} (h : ForHeadForm ps head) :
    StartsWith (.symbol .openParen) ps := by
  cases h
  exact ⟨_, _, rfl⟩

theorem ForEachHeadForm.startsInParen {ps : List Piece} {head : String × Expr} (h : ForEachHeadForm ps head) :
    StartsWith (.symbol .openParen) ps := by
  cases h
  exact ⟨_, _, rfl⟩

theorem ArmsForm.startsInParen {d : Bool} {ps : List Piece} {arms : Arms} (h : ArmsForm d ps arms) :
    StartsWith (.symbol .openParen) ps := by
  cases h with
  | last test | otherwise _ test | next _ _ test =>
      obtain ⟨l, rest, rfl⟩ := test.startsInParen
      exact ⟨l, _, rfl⟩

/-- A word that takes parentheses, with its parentheses behind it. -/
theorem startsCode_head {t : Token} {ps : List Piece} (hstarts : t.startsStatement = true)
    (hps : StartsWith (.symbol .openParen) ps) (ts : List Token) : StartsCode (t :: (tokensIn ps ++ ts)) := by
  obtain ⟨l, rest, rfl⟩ := hps
  exact .inl ⟨hstarts, fun _ => rfl⟩

theorem AssignmentForm.startsCode {ps : List Piece} {c : Change} (h : AssignmentForm ps c) (ts : List Token) :
    StartsCode (tokensIn ps ++ ts) := by
  cases h with
  | operand l l' op => exact .inr ⟨⟨_, rfl⟩, by cases op <;> rfl⟩
  | increment | decrement => exact .inr ⟨⟨_, rfl⟩, rfl⟩

theorem DeclarationForm.startsCode {ps : List Piece} {c : Change} (h : DeclarationForm ps c) (ts : List Token) :
    StartsCode (tokensIn ps ++ ts) := by
  cases h <;> exact startsCode_cons rfl rfl _

theorem StatementForm.startsCode {d : Bool} {ps : List Piece} {is : List Instruction} (h : StatementForm d ps is)
    (hps : ps.all Piece.isToken = true) (ts : List Token) : StartsCode (tokensIn ps ++ ts) := by
  cases h with
  | text => cases hps
  | empty | scope => exact startsCode_cons rfl rfl _
  | change l form =>
      rw [tokensIn_append, List.append_assoc]
      cases form with
      | declaration form => exact form.startsCode _
      | assignment form => exact form.startsCode _
  | choice l arms => exact startsCode_head rfl arms.startsInParen ts
  | forLoop l head =>
      rw [tokensIn_append, List.append_assoc]
      exact startsCode_head rfl head.startsInParen _
  | forEach l head =>
      rw [tokensIn_append, List.append_assoc]
      exact startsCode_head rfl head.startsInParen _
  | whileLoop l test =>
      rw [tokensIn_append, List.append_assoc]
      exact startsCode_head rfl test.startsInParen _

/-- Statements without text lines among them start as code does. -/
theorem StatementsForm.startsCode {ps : List Piece} {is : List Instruction} (h : StatementsForm ps is)
    (hps : ps.all Piece.isToken = true) (hne : ps ≠ []) : StartsCode (tokensIn ps) := by
  cases h with
  | nil => exact absurd rfl hne
  | cons first more =>
      rw [List.all_append, Bool.and_eq_true] at hps
      rw [tokensIn_append]
      exact first.startsCode hps.1 _

/-! ## Lines of statements -/

/-- The line holds one or more statements, and nothing behind them but a comment. -/
def HoldsStatements (cs : List Char) : Prop :=
  ∃ number last ps is, Piece.ofCode number cs = .ok ps ∧ ps ≠ [] ∧ parseBlock last ps = .ok is

/-- What the reader of lines sees of statements: how they start, that their braces are paired, and how they end. -/
structure StatementTokens (ts : List Token) : Prop where
  starts : StartsCode ts
  balanced : Balanced ts
  ends : ∀ t ∈ ts.getLast?, t.endsStatement = true

theorem HoldsStatements.lexemes {cs : List Char} (h : HoldsStatements cs) :
    ∃ ls, Lexeme.all cs = .ok ls ∧ StatementTokens (Lexeme.tokensOf ls) := by
  obtain ⟨number, last, ps, is, hps, hne, his⟩ := h
  have form := parseBlock_takes last his
  unfold Piece.ofCode at hps
  split at hps
  · rename_i ts hts
    cases hps
    obtain ⟨ls, hls, rfl⟩ := map_eq_ok_iff.1 hts
    have hstarts := form.startsCode (by simp [Piece.isToken]) hne
    have hpaired : Balanced (tokensIn _) := form.pairedBraces
    have hends := form.fits.last
    rw [tokensIn_map_token] at hstarts hpaired
    rw [List.getLast?_map] at hends
    refine ⟨ls, hls, hstarts, hpaired, fun t ht => ?_⟩
    exact hends (.token number t) (Option.mem_map_of_mem _ ht)
  · cases hps

section Scans

variable {cs : List Char} {ls : List Lexeme} {depth : Nat}

/-- A line with paired braces leaves the depth of the block as it is. -/
theorem scanCode_balanced (h : Lexeme.all cs = .ok ls) (hls : Balanced (Lexeme.tokensOf ls)) (hdepth : 0 < depth) :
    scanCode depth none cs = .ok (.opened depth (Lexeme.tokensOf ls).getLast?) := by
  obtain ⟨rest, hbegins, hrest⟩ := Lexeme.all_eq_ok_iff.1 h
  rw [scanCode_begins hbegins (hls.staysOpen hdepth), Option.or_none, hls.depthBehind_eq, scanCode_of_nothing hrest]
  rfl

/-- A line of which all tokens are read is scanned from any depth. -/
theorem exists_scanCode (h : Lexeme.all cs = .ok ls) (depth : Nat) (last : Option Token) :
    ∃ scan, scanCode depth last cs = .ok scan := by
  obtain ⟨rest, hbegins, hrest⟩ := Lexeme.all_eq_ok_iff.1 h
  clear h
  induction hbegins generalizing depth last with
  | nil => exact ⟨_, scanCode_of_nothing hrest depth last⟩
  | @cons _ _ _ l _ hnext _ ih =>
      rw [scanCode_next? hnext]
      split
      · exact ⟨_, rfl⟩
      · obtain ⟨scan, hscan⟩ := ih (depthBehind depth [l.token]) (some l.token) hrest
        exact ⟨_, map_eq_ok_iff.2 ⟨scan, hscan, rfl⟩⟩

end Scans

/-- The block with no statement left open. -/
def OpenBlock.settled (b : OpenBlock) : OpenBlock := { b with continued := false, pending := false }

namespace Reader

variable {r : Reader} {b : OpenBlock} {number : Nat} {cs : List Char} {ls : List Lexeme}

theorem afterCode_of_ends {last : Option Token} (h : ∀ t ∈ last, t.endsStatement = true) :
    afterCode b b.depth last = b.settled := by
  cases last with
  | none => rfl
  | some t =>
      have hends := h t rfl
      have hmore : t.expectsMore = false := by
        rw [← Bool.not_eq_true]
        intro hmore
        rw [Token.endsStatement_of_expectsMore hmore] at hends
        cases hends
      simp [afterCode, OpenBlock.settled, hends, hmore]

/-- A line of which all tokens are read is refused, as code, for what stands behind its block alone. -/
theorem statementLine_refuses (h : Lexeme.all cs = .ok ls) :
    FailsOnly (fun e => ∃ rest, e = .trailingContent rest) (r.statementLine b number cs) := by
  obtain ⟨scan, hscan⟩ := exists_scanCode h b.depth none
  refine FailsOnly.bind (hscan ▸ failsOnly_ok) fun scan _ => ?_
  cases scan with
  | opened => exact failsOnly_pure
  | closed before after =>
      refine FailsOnly.bind ?_ fun _ _ => failsOnly_pure
      simp only [checkTrailing]
      split
      · exact failsOnly_ok
      · exact failsOnly_error.2 ⟨_, rfl⟩

/-- How a line of statements is taken: not for text, nor for text without its marker, but for code. While a brace of
the block is open, the line is kept as it is, and no brace is closed and no statement left open behind it. -/
structure TakesStatements (r : Reader) (b : OpenBlock) (number : Nat) (cs : List Char) : Prop where
  code : r.step number cs = r.statementLine b number cs
  notText : ∀ n fragments k r', r.step number cs ≠ .ok (some (.text n fragments k), r')
  notRefused : ∀ text cause, r.step number cs ≠ .error (.textInCodeBlock text cause)
  kept : 0 < b.depth → r.step number cs =
    .ok (some (.code number (String.ofList cs) b.index), ⟨r.blocks, some b.settled⟩)

theorem step_statements (hr : r.current = some b) (h : HoldsStatements cs) (number : Nat) :
    r.TakesStatements b number cs := by
  obtain ⟨ls, hls, htokens⟩ := h.lexemes
  have hcode : r.step number cs = r.statementLine b number cs :=
    step_code hr (readsAsCode_of_startsCode hls htokens.starts)
  refine ⟨hcode, fun n fragments k r' htext => ?_, fun text cause hrefused => ?_, fun hdepth => ?_⟩
  · rw [hcode] at htext
    obtain ⟨scan, _, _, hline⟩ := statementLine_eq_ok_iff.1 htext
    obtain ⟨_, hline⟩ := codeLine_eq_some_iff.1 hline.symm
    cases hline
  · rw [hcode] at hrefused
    obtain ⟨rest, hcause⟩ := statementLine_refuses hls _ hrefused
    cases hcause
  · have hfilled : allBlank cs = false := by
      obtain ⟨rest, hbegins, _⟩ := Lexeme.all_eq_ok_iff.1 hls
      refine hbegins.not_allBlank ?_
      rintro rfl
      exact htokens.starts
    rw [hcode, ← afterCode_of_ends htokens.ends]
    exact statementLine_eq_ok_iff.2 ⟨_, scanCode_balanced hls htokens.balanced hdepth, .opened _ _,
      (codeLine_eq_some_iff.2 ⟨hfilled, rfl⟩).symm⟩

/-- Lines of code of a block, of which the first has the given number. -/
def codeLines (block number : Nat) (lines : List (List Char)) : List Line :=
  (lines.zipIdx number).map fun (line, n) => .code n (String.ofList line) block

theorem run_statements {lines : List (List Char)} (h : ∀ line ∈ lines, HoldsStatements line) (hdepth : 0 < b.depth)
    (blocks number : Nat) : (⟨blocks, some b.settled⟩ : Reader).run number lines =
      .ok (codeLines b.index number lines, ⟨blocks, some b.settled⟩) := by
  induction lines generalizing number with
  | nil => rfl
  | cons line lines ih =>
      obtain ⟨hline, hmore⟩ := List.forall_mem_cons.1 h
      have hstep := (step_statements (r := ⟨blocks, some b.settled⟩) rfl hline number).kept hdepth
      exact run_cons_eq_ok_iff.2 ⟨_, _, _, hstep, ih hmore _, rfl⟩

/-- A line of whole statements is never taken for text: it reads as a statement, and no keyword in it is refused, so
that a reader takes it for code in any block, whatever the line before has left open. While a brace of the block is
open, such lines are kept one after another. -/
theorem statements_taken (h : HoldsStatements cs) :
    isStatement cs = true ∧ keywordText? cs = none ∧
      ∀ (r : Reader) (b : OpenBlock) (number : Nat), r.current = some b →
        r.TakesStatements b number cs ∧
        ∀ lines, 0 < b.depth → (∀ line ∈ lines, HoldsStatements line) →
          r.run number (cs :: lines) = .ok (codeLines b.index number (cs :: lines), ⟨r.blocks, some b.settled⟩) := by
  obtain ⟨ls, hls, htokens⟩ := h.lexemes
  refine ⟨isStatement_of_startsCode hls htokens.starts, keywordText?_of_startsCode hls htokens.starts, ?_⟩
  intro r b number hr
  have htakes := step_statements hr h number
  refine ⟨htakes, fun lines hdepth hlines => ?_⟩
  exact run_cons_eq_ok_iff.2 ⟨_, _, _, htakes.kept hdepth, run_statements hlines hdepth _ _, rfl⟩

/-- A loop, with a brace and a keyword in its string and behind it. -/
def loopLine : String := "while (a) \x7b x += 'if \x7d'; \x7d // if text"

/-- The pieces of the loop. -/
def loopPieces : List Piece :=
  [.token 1 (.keyword .whileLoop), .token 1 (.symbol .openParen), .token 1 (.ident "a"),
    .token 1 (.symbol .closeParen), .token 1 (.symbol .openBrace), .token 1 (.ident "x"), .token 1 (.symbol .addTo),
    .token 1 (.string "if \x7d"), .token 1 (.symbol .semicolon), .token 1 (.symbol .closeBrace)]

theorem ofCode_loop : Piece.ofCode 1 loopLine.toList = .ok loopPieces := by
  cbv

theorem parseBlock_loop : parseBlock 1 loopPieces =
    .ok [.whileLoop 1 (.path ["a"]) [.change (.assign 1 "x" .add (.string "if \x7d"))]] := by
  cbv

theorem holdsStatements_loop : HoldsStatements loopLine.toList :=
  ⟨1, 1, loopPieces, _, ofCode_loop, nofun, parseBlock_loop⟩

/-- The loop in the middle of a block, behind a line that ends in the middle of an expression. -/
theorem statements_taken_loop :
    HoldsStatements loopLine.toList ∧ keywordText? loopLine.toList = none ∧
      (⟨1, some ⟨2, 1, 0, true, true⟩⟩ : Reader).step 4 loopLine.toList =
        .ok (some (.code 4 loopLine 0), ⟨1, some ⟨2, 1, 0, false, false⟩⟩) := by
  obtain ⟨_, hkeyword, htaken⟩ := statements_taken holdsStatements_loop
  obtain ⟨htakes, _⟩ := htaken ⟨1, some ⟨2, 1, 0, true, true⟩⟩ ⟨2, 1, 0, true, true⟩ 4 rfl
  have hkept := htakes.kept Nat.two_pos
  rw [String.ofList_toList] at hkept
  exact ⟨holdsStatements_loop, hkeyword, hkept⟩

end Reader

end MailTemplate
