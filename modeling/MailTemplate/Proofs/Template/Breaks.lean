import MailTemplate.Proofs.Template.Scan

/-!
# A line of statements in two

A line of code may be broken behind a token that wants more, or before one that only goes on with an
expression. Both halves are then read as code, and leave the reader as the whole line does
(`Reader.step_break`).
-/

namespace MailTemplate

open Text

/-! ## What a line of statements starts with -/

/-- The first two tokens make a line a statement. -/
def StartsCode : List Token → Prop
  | [] => False
  | [t] => t.startsStatement = true
  | t :: u :: _ =>
      t.startsStatement = true ∧ (t.takesParen = true → u = .symbol .openParen) ∨
        (∃ name, t = .ident name) ∧ u.isAssignment = true

/-- Whether a line may end between two tokens of a statement. -/
def MayBreak (t u : Token) : Prop :=
  t.expectsMore = true ∨ u.continuesExpression = true ∧ t.endsStatement = false

theorem Token.not_continuesExpression_of_isAssignment {t : Token} (h : t.isAssignment = true) :
    t.continuesExpression = false := by
  cases t with
  | symbol s =>
      revert h
      cases s <;> decide
  | keyword | ident | number | string => rfl

/-- A break leaves the tokens that make the line a statement in its first half. -/
theorem StartsCode.cut {t u : Token} {front back : List Token}
    (h : StartsCode (front ++ [t] ++ u :: back)) (hbreak : MayBreak t u) : StartsCode (front ++ [t]) := by
  match front, h with
  | [], .inl h => exact h.1
  | [], .inr ⟨⟨name, ht⟩, hu⟩ =>
      rcases hbreak with hmore | ⟨hcontinues, _⟩
      · rw [ht] at hmore
        cases hmore
      · rw [Token.not_continuesExpression_of_isAssignment hu] at hcontinues
        cases hcontinues
  | [_], h => exact h
  | _ :: _ :: _, h => exact h

section Starts

variable {cs rest : List Char} {l m : Lexeme} {ls : List Lexeme}

theorem not_startsComment_of_next? (h : Lexeme.next? cs = .ok (some (l, rest))) :
    startsComment (trimStart cs) = false := by
  rw [← Bool.not_eq_true]
  intro hcomment
  rw [Lexeme.next?_of_nothing (.inr hcomment)] at h
  cases h

theorem Begins.not_allBlank (h : Begins cs ls rest) (hls : ls ≠ []) : allBlank cs = false := by
  cases h with
  | nil => exact absurd rfl hls
  | cons hnext =>
      rw [← Bool.not_eq_true]
      intro hblank
      rw [Lexeme.next?_of_nothing (.inl hblank)] at hnext
      cases hnext

theorem leadsWithOperator_begins (h : Begins cs (l :: ls) rest) :
    leadsWithOperator (trim cs) = l.token.continuesExpression := by
  cases h.trimmed with
  | cons hnext => simp only [leadsWithOperator, firstToken?, hnext]

theorem startsCode_of_readsAsCode (h : Begins cs (l :: m :: ls) rest) (hcode : readsAsCode cs = true) :
    StartsCode (Lexeme.tokensOf (l :: m :: ls)) := by
  rw [readsAsCode, Bool.and_eq_true, Option.isNone_iff_eq_none] at hcode
  obtain ⟨hstatement, hkeyword⟩ := hcode
  obtain ⟨_, _, t⟩ := l
  obtain ⟨_, _, u⟩ := m
  cases h.trimmed with
  | cons hl hmore =>
      cases hmore with
      | cons hm _ =>
          simp only [isStatement, not_startsComment_of_next? hl, firstToken?, hl, hm,
            Bool.false_or, Bool.or_eq_true] at hstatement
          simp only [keywordText?, firstToken?, hl, hm] at hkeyword
          rcases hstatement with hstarts | hassign
          · refine .inl ⟨hstarts, fun hparen => ?_⟩
            rw [if_pos hparen, Option.map_eq_none_iff] at hkeyword
            split at hkeyword <;> simp_all
          · split at hassign
            · rename_i he
              cases he
              exact .inr ⟨⟨_, rfl⟩, hassign⟩
            · cases hassign

/-- Where there is no token, there is none without the blanks at the end. -/
theorem Lexeme.next?_trimEnd (h : next? cs = .ok none) : next? (trimEnd cs) = .ok none := by
  refine next?_of_nothing ((nothing_of_next? h).imp (fun hblank => ?_) fun hcomment => ?_)
  · exact List.all_eq_true.2 fun c hc => List.all_eq_true.1 hblank c ((trimEnd_cut cs).subset hc)
  · obtain ⟨rest, hrest⟩ := startsComment_eq_true hcomment
    have hslash : isBlank '/' = false := rfl
    have hcs : cs = leadingBlanks cs ++ ['/', '/'] ++ rest := by
      rw [List.append_assoc, List.cons_append, List.cons_append, List.nil_append, ← hrest,
        leadingBlanks_append_trimStart]
    have hend : trimEnd cs = leadingBlanks cs ++ '/' :: '/' :: trimEnd rest := by
      rw [hcs, trimEnd_append (by simp [hslash]), ← hcs]
      simp
    rw [hend, trimStart_append (allBlank_leadingBlanks cs) hslash]
    rfl

/-- The tokens of a line are those of the line without the blanks around it. -/
theorem Lexeme.all_trim (h : all cs = .ok (l :: ls)) : all (trim cs) = .ok ({ l with gap := [] } :: ls) := by
  obtain ⟨rest, hbegins, hrest⟩ := all_eq_ok_iff.1 h
  exact all_eq_ok_iff.2 ⟨trimEnd rest, hbegins.trimmed, next?_trimEnd hrest⟩

theorem isStatement_of_startsCode (h : Lexeme.all cs = .ok ls) (hstarts : StartsCode (Lexeme.tokensOf ls)) :
    isStatement cs = true := by
  obtain ⟨rest, hbegins, _⟩ := Lexeme.all_eq_ok_iff.1 h
  cases hbegins with
  | nil => exact hstarts.elim
  | cons hl hmore =>
      cases hmore with
      | nil =>
          have hstarts : Token.startsStatement _ = true := hstarts
          simp only [isStatement, firstToken?, hl, hstarts, Bool.true_or, Bool.or_true]
      | cons hm _ =>
          simp only [isStatement, firstToken?, hl, hm]
          rcases hstarts with ⟨hstarts, _⟩ | ⟨⟨name, ht⟩, hassign⟩
          · simp [hstarts]
          · simp [ht, hassign]

theorem keywordText?_of_startsCode (h : Lexeme.all cs = .ok ls) (hstarts : StartsCode (Lexeme.tokensOf ls)) :
    keywordText? cs = none := by
  have htokens := tokens_of_all h
  obtain ⟨rest, hbegins, hrest⟩ := Lexeme.all_eq_ok_iff.1 h
  cases hbegins with
  | nil => exact hstarts.elim
  | @cons _ mid _ l _ hl hmore =>
      simp only [keywordText?, firstToken?, hl]
      split
      · rename_i htakes
        rw [Option.map_eq_none_iff]
        cases hmore with
        | nil => rw [hrest]
        | @cons _ _ _ m _ hm _ =>
            obtain ⟨_, _, u⟩ := m
            rcases hstarts with ⟨_, hparen⟩ | ⟨⟨name, ht⟩, _⟩
            · obtain rfl : u = .symbol .openParen := hparen htakes
              rw [hm, htokens]
            · rw [ht] at htakes
              cases htakes
      · rfl

theorem readsAsCode_of_startsCode (h : Lexeme.all cs = .ok ls) (hstarts : StartsCode (Lexeme.tokensOf ls)) :
    readsAsCode cs = true := by
  cases ls with
  | nil => exact hstarts.elim
  | cons l ls =>
      have htrim := Lexeme.all_trim h
      have hstarts : StartsCode (Lexeme.tokensOf ({ l with gap := [] } :: ls)) := hstarts
      rw [readsAsCode, isStatement_of_startsCode htrim hstarts, keywordText?_of_startsCode htrim hstarts]
      rfl

end Starts

/-! ## Scans of the halves -/

theorem Begins.first {cs rest : List Char} {ls : List Lexeme} (h : Begins cs ls rest) :
    Begins (Lexeme.text ls) ls [] := by
  have hcut := h.cut (List.nil_prefix (l := rest))
  rwa [List.append_nil] at hcut

theorem CodeScan.code_after (front cs : List Char) (scan : CodeScan) :
    (scan.after front).code (front ++ cs) = front ++ scan.code cs := by
  cases scan <;> rfl

section Scans

variable {depth : Nat} {cs rest : List Char} {ls : List Lexeme} {l m : Lexeme}

/-- Which token came before does not matter to a scan that meets another. -/
theorem scanCode_begins_last (h : Begins cs (l :: ls) rest) (last last' : Option Token) :
    scanCode depth last cs = scanCode depth last' cs := by
  cases h with
  | cons hnext => rw [scanCode_next? hnext, scanCode_next? hnext]

/-- A line that ends behind some of its tokens leaves the block open. -/
theorem scanCode_first (h : Begins cs ls rest) (hopen : StaysOpen depth (Lexeme.tokensOf ls)) :
    scanCode depth none (Lexeme.text ls) =
      .ok (.opened (depthBehind depth (Lexeme.tokensOf ls)) (Lexeme.tokensOf ls).getLast?) := by
  rw [scanCode_begins h.first hopen, Option.or_none, scanCode_of_nothing rfl]
  rfl

/-- The rest of a line is scanned as on a line of its own. -/
theorem scanCode_second (h : Begins cs ls rest) (hopen : StaysOpen depth (Lexeme.tokensOf ls))
    {after : List Char} {ms : List Lexeme} (hmore : Begins rest (m :: ms) after) {scan : CodeScan}
    (hscan : scanCode depth none cs = .ok scan) :
    ∃ scan', scanCode (depthBehind depth (Lexeme.tokensOf ls)) none rest = .ok scan' ∧
      scan = scan'.after (Lexeme.text ls) := by
  rw [scanCode_begins h hopen, scanCode_begins_last hmore _ none] at hscan
  obtain ⟨scan', hscan', rfl⟩ := map_eq_ok_iff.1 hscan
  exact ⟨scan', hscan', rfl⟩

end Scans

/-- The lexemes of a text are those of its halves, if it is cut between them. -/
theorem Lexeme.all_cut {cs : List Char} {ls ms : List Lexeme} (h : all (text ls ++ cs) = .ok (ls ++ ms)) :
    all (text ls) = .ok ls ∧ all cs = .ok ms := by
  obtain ⟨rest, hbegins, hrest⟩ := all_eq_ok_iff.1 h
  obtain ⟨mid, hls, hms⟩ := hbegins.split
  obtain rfl := List.append_cancel_left hls.eq_append
  exact ⟨all_eq_ok_iff.2 ⟨[], hls.first, rfl⟩, all_eq_ok_iff.2 ⟨rest, hms, hrest⟩⟩

namespace Reader

/-- The reader behind a line of statements, by the scan of that line. -/
inductive Leaves (r : Reader) (b : OpenBlock) : CodeScan → Reader → Prop
  | closed {before after} : checkTrailing after = .ok () →
      Leaves r b (.closed before after) ⟨r.blocks, none⟩
  | opened (depth : Nat) (last : Option Token) :
      Leaves r b (.opened depth last) ⟨r.blocks, some (afterCode b depth last)⟩

variable {r r' : Reader} {b : OpenBlock} {number m k : Nat} {line rest : List Char}
  {o : Option Line} {text : String}

theorem statementLine_eq_ok_iff : r.statementLine b number line = .ok (o, r') ↔
    ∃ scan, scanCode b.depth none line = .ok scan ∧ r.Leaves b scan r' ∧
      o = codeLine number (scan.code line) b.index := by
  rw [statementLine, bind_eq_ok_iff]
  refine exists_congr fun scan => and_congr_right fun _ => ?_
  cases scan with
  | opened depth last =>
      constructor
      · intro h
        cases h
        exact ⟨.opened depth last, rfl⟩
      · rintro ⟨⟨⟩, rfl⟩
        rfl
  | closed before after =>
      constructor
      · intro h
        obtain ⟨_, htrailing, h⟩ := bind_eq_ok_iff.1 h
        cases h
        exact ⟨.closed htrailing, rfl⟩
      · rintro ⟨⟨htrailing⟩, rfl⟩
        exact bind_eq_ok_iff.2 ⟨(), htrailing, rfl⟩

theorem Leaves.second {front : List Char} {scan : CodeScan} (h : r.Leaves b (scan.after front) r')
    (depth : Nat) (last : Option Token) :
    (⟨r.blocks, some (afterCode b depth last)⟩ : Reader).Leaves (afterCode b depth last) scan r' := by
  cases scan with
  | closed =>
      cases h with
      | closed htrailing => exact .closed htrailing
  | opened depth last =>
      cases h
      exact .opened depth last

theorem codeLine_eq_some_iff {cs : List Char} {c : Line} :
    codeLine number cs k = some c ↔ allBlank cs = false ∧ c = .code number (String.ofList cs) k := by
  unfold codeLine
  cases allBlank cs <;> simp [eq_comm]

/-- Whether a line within a block is code: it goes on with a statement, or is code by itself. -/
def TakesCode (b : OpenBlock) (line : List Char) : Prop :=
  (b.continued || b.pending && leadsWithOperator (trim line)) = true ∨ readsAsCode line = true

theorem step_of_takesCode (hr : r.current = some b) (hblank : allBlank line = false)
    (h : TakesCode b line) : r.step number line = r.statementLine b number line := by
  rcases h with hgoesOn | hcode
  · rw [step, hr]
    simp only [innerLine]
    rw [if_neg (by rw [List.isEmpty_iff, trim_eq_nil_iff, hblank]; exact Bool.false_ne_true),
      if_pos hgoesOn]
  · exact step_code hr hcode

theorem takesCode_of_step (hr : r.current = some b)
    (h : r.step number line = .ok (some (.code m text k), r')) :
    TakesCode b line ∧ r.statementLine b number line = .ok (some (.code m text k), r') := by
  have htext {cs : List Char} :
      (textLine number cs (some b.index)).map (·, r) ≠ .ok (some (.code m text k), r') := by
    intro h
    obtain ⟨o, htext, h⟩ := map_eq_ok_iff.1 h
    obtain ⟨fragments, _, rfl⟩ := textLine_eq_ok_iff.1 htext
    cases h
  rw [step, hr] at h
  simp only [innerLine] at h
  split at h
  · cases h
  · split at h
    · rename_i hgoesOn
      exact ⟨.inl hgoesOn, h⟩
    · split at h
      · exact absurd h htext
      · split at h
        · rename_i hstatement
          split at h
          · cases h
          · rename_i hkeyword
            refine ⟨.inr ?_, h⟩
            rw [readsAsCode, hstatement, hkeyword]
            rfl
        · exact absurd h htext

section Halves

variable {front back : List Lexeme} {t u : Lexeme} {cs behind : List Char}

theorem TakesCode.first (h : TakesCode b line) (hline : Begins line (front ++ [t] ++ u :: back) behind)
    (hcs : Begins cs (front ++ [t]) []) (hbreak : MayBreak t.token u.token) : TakesCode b cs := by
  rcases h with hgoesOn | hcode
  · -- The first token of the line is that of its first half.
    refine .inl ?_
    match front, hline, hcs with
    | [], hline, hcs => rwa [leadsWithOperator_begins hcs, ← leadsWithOperator_begins hline]
    | l :: front, hline, hcs => rwa [leadsWithOperator_begins hcs, ← leadsWithOperator_begins hline]
  · have hstarts : StartsCode (Lexeme.tokensOf (front ++ [t] ++ u :: back)) := by
      match front, hline with
      | [], hline => exact startsCode_of_readsAsCode hline hcode
      | [l], hline => exact startsCode_of_readsAsCode hline hcode
      | l :: m :: front, hline => exact startsCode_of_readsAsCode hline hcode
    rw [Lexeme.tokensOf_append, Lexeme.tokensOf_append] at hstarts
    refine .inr (readsAsCode_of_startsCode (Lexeme.all_eq_ok_iff.2 ⟨[], hcs, rfl⟩) ?_)
    rw [Lexeme.tokensOf_append]
    exact hstarts.cut hbreak

theorem TakesCode.second (hcs : Begins cs (u :: back) behind) (hbreak : MayBreak t.token u.token)
    (depth : Nat) : TakesCode (afterCode b depth (some t.token)) cs := by
  refine .inl ?_
  rw [leadsWithOperator_begins hcs]
  rcases hbreak with hmore | ⟨hcontinues, hends⟩
  · simp [afterCode, hmore]
  · simp [afterCode, hcontinues, hends]

/-- A line of statements is read in two halves as it is in one, if it may be broken between them. -/
theorem step_break (hr : r.current = some b) (hdepth : 0 < b.depth)
    (hstep : r.step number (Lexeme.text (front ++ [t]) ++ rest) = .ok (some (.code m text k), r'))
    (hlex : Lexeme.all text.toList = .ok (front ++ [t] ++ u :: back)) (hbreak : MayBreak t.token u.token) :
    ∃ mid text', text.toList = Lexeme.text (front ++ [t]) ++ text' ∧
      (∀ n, r.step n (Lexeme.text (front ++ [t])) =
        .ok (some (.code n (String.ofList (Lexeme.text (front ++ [t]))) k), mid)) ∧
      ∀ n, mid.step n rest = .ok (some (.code n (String.ofList text') k), r') := by
  obtain ⟨hcode, hstatement⟩ := takesCode_of_step hr hstep
  obtain ⟨scan, hscan, hleaves, ho⟩ := statementLine_eq_ok_iff.1 hstatement
  obtain ⟨_, hline⟩ := codeLine_eq_some_iff.1 ho.symm
  cases hline
  rw [String.toList_ofList] at hlex ⊢
  -- The scan passes the tokens of both halves.
  obtain ⟨ls, behind, ends, hbegins, hopen, hends, hscanEnds⟩ := scanCode_eq_ok hdepth hscan
  obtain rfl : ls = front ++ [t] ++ u :: back := by
    rw [hscanEnds, hends.all_code hbegins] at hlex
    exact Except.ok.inj hlex
  obtain ⟨mid, hfirst, hsecond⟩ := hbegins.split
  obtain rfl := List.append_cancel_left hfirst.eq_append
  rw [Lexeme.tokensOf_append, staysOpen_append] at hopen
  obtain ⟨scan', hscanSecond, rfl⟩ := scanCode_second hfirst hopen.1 hsecond hscan
  have hscanFirst := scanCode_first hfirst hopen.1
  have hlast : (Lexeme.tokensOf (front ++ [t])).getLast? = some t.token := by simp
  rw [hlast] at hscanFirst
  rw [CodeScan.code_after] at hlex ⊢
  generalize depthBehind b.depth (Lexeme.tokensOf (front ++ [t])) = depth at *
  refine ⟨⟨r.blocks, some (afterCode b depth (some t.token))⟩, scan'.code rest, rfl, fun n => ?_,
    fun n => ?_⟩
  · have hfilled := hfirst.first.not_allBlank (by simp)
    rw [step_of_takesCode hr hfilled (hcode.first hbegins hfirst.first hbreak)]
    exact statementLine_eq_ok_iff.2
      ⟨_, hscanFirst, .opened _ _, (codeLine_eq_some_iff.2 ⟨hfilled, rfl⟩).symm⟩
  · obtain ⟨_, hkept, _⟩ := Lexeme.all_eq_ok_iff.1 (Lexeme.all_cut hlex).2
    have hfilled := hkept.not_allBlank (List.cons_ne_nil u back)
    rw [step_of_takesCode rfl (hsecond.not_allBlank (List.cons_ne_nil u back)) (.second hsecond hbreak _)]
    exact statementLine_eq_ok_iff.2
      ⟨scan', hscanSecond, hleaves.second _ _, (codeLine_eq_some_iff.2 ⟨hfilled, rfl⟩).symm⟩

end Halves

end Reader

end MailTemplate
