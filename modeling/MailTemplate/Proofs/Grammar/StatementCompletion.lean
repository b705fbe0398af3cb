import MailTemplate.Proofs.Grammar.StatementReader

/-!
# The grammar of statements is read

A statement is read to its end, whatever stands behind it, unless it could take an `else` that
follows. With what a reader takes this makes reading a code block the same as the grammar
(`parseBlock_eq_ok_iff`).
-/

namespace MailTemplate

variable (last : Nat)

/-! ## Parts of statements -/

theorem ExprForm.not_startsWith_semicolon {t : Rank} {ps rest : List Piece} {e : Expr}
    (h : ExprForm t ps e) : ¬ StartsWith (.symbol .semicolon) (ps ++ rest) := by
  induction h generalizing rest with
  | number | string | trueLit | falseLit | nullLit | ident | parens => rintro ⟨_, _, ⟨⟩⟩
  | unary l op _ _ =>
      rintro ⟨_, _, he⟩
      cases op <;> cases he
  | primary _ ih | selection _ ih | operand _ ih | tighter _ ih | loosest _ ih => exact ih
  | member _ _ _ ih | index _ _ _ _ ih _ | binary _ _ _ _ _ ih _ | cond _ _ _ _ _ ih _ _ =>
      simpa only [List.append_assoc] using ih

theorem AssignmentForm.completes {ps : List Piece} {c : Change} (h : AssignmentForm ps c) {s : Symbol}
    (hs : s.joinsAt? = none) (m : Nat) (rest : List Piece) :
    Reads (parseAssignment last (ps ++ .token m (.symbol s) :: rest)) c
      (.token m (.symbol s) :: rest) := by
  have reads_sign {l : Nat} {s : Symbol} {sign : AssignSign} {mid : List Piece}
      (hs : AssignSign.ofSymbol? s = some sign) :
      Reads (expectAssignSign last (.token l (.symbol s) :: mid)) sign mid := by
    simp only [expectAssignSign, hs]
    exact reads_ok.2 rfl
  cases h with
  | operand l l' op form =>
      refine .bind (reads_expectIdent.2 ⟨l, rfl⟩) fun _ => ?_
      have hsign : AssignSign.ofSymbol? op.symbol = some (.operand op) := by cases op <;> rfl
      refine .bind (reads_sign hsign) fun _ => ?_
      exact .bind (form.completes last _ (stopsAt_symbol hs)) fun _ => reads_pure.2 rfl
  | increment l l' =>
      refine .bind (reads_expectIdent.2 ⟨l, rfl⟩) fun _ => ?_
      exact .bind (reads_sign rfl) fun _ => reads_pure.2 rfl
  | decrement l l' =>
      refine .bind (reads_expectIdent.2 ⟨l, rfl⟩) fun _ => ?_
      exact .bind (reads_sign rfl) fun _ => reads_pure.2 rfl

theorem DeclarationForm.completes {ps : List Piece} {c : Change} (h : DeclarationForm ps c) (m : Nat)
    (rest : List Piece) :
    Reads (parseDeclaration last (ps ++ .token m (.symbol .semicolon) :: rest)) c
      (.token m (.symbol .semicolon) :: rest) := by
  cases h with
  | bare l l' =>
      refine .expectKeyword fun _ => ?_
      refine .bind (reads_expectIdent.2 ⟨l', rfl⟩) fun _ => ?_
      exact reads_pure.2 rfl
  | value l l' m' form =>
      refine .expectKeyword fun _ => ?_
      refine .bind (reads_expectIdent.2 ⟨l', rfl⟩) fun _ => ?_
      exact .bind (form.completes last _ (stopsAt_symbol rfl)) fun _ => reads_pure.2 rfl

theorem DeclarationForm.head {ps : List Piece} {c : Change} (h : DeclarationForm ps c) :
    ∃ l mid, ps = .token l (.keyword .var) :: mid := by
  cases h <;> exact ⟨_, _, rfl⟩

theorem AssignmentForm.head {ps : List Piece} {c : Change} (h : AssignmentForm ps c) :
    ∃ l name mid, ps = .token l (.ident name) :: mid := by
  cases h <;> exact ⟨_, _, _, rfl⟩

theorem ChangeForm.completes {ps : List Piece} {c : Change} (h : ChangeForm ps c) (m : Nat)
    (rest : List Piece) :
    Reads (parseChange last (ps ++ .token m (.symbol .semicolon) :: rest)) c
      (.token m (.symbol .semicolon) :: rest) := by
  cases h with
  | declaration form =>
      have hread := form.completes last m rest
      obtain ⟨l, mid, rfl⟩ := form.head
      rw [List.cons_append] at hread ⊢
      rw [parseChange, takeKeyword?_cons]
      exact hread
  | assignment form =>
      have hread := form.completes last (s := .semicolon) rfl m rest
      obtain ⟨l, name, mid, rfl⟩ := form.head
      rw [List.cons_append] at hread ⊢
      rw [parseChange, takeKeyword?_eq_none.2 (by rintro ⟨_, _, ⟨⟩⟩)]
      exact hread

theorem ConditionForm.completes {ps : List Piece} {e : Expr} (h : ConditionForm ps e)
    (rest : List Piece) : Reads (parseCondition last (ps ++ rest)) e rest := by
  cases h with
  | mk l l' form =>
      rw [List.append_assoc, List.cons_append]
      refine .expectSymbol fun _ => ?_
      refine .bind (form.completes last _ (stopsAt_symbol rfl)) fun _ => ?_
      exact .expectSymbol fun _ => reads_pure.2 rfl

theorem OptionForm.completes {α : Type} {form : List Piece → α → Prop} {stop : Symbol}
    {read : (ps : List Piece) → Except SyntaxError (Parsed α ps)} {ps rest : List Piece} {o : Option α}
    (h : OptionForm form ps o) (hrest : StartsWith (.symbol stop) rest)
    (hstart : ∀ a, form ps a → ¬ StartsWith (.symbol stop) (ps ++ rest))
    (hread : ∀ a, form ps a → Reads (read (ps ++ rest)) a rest) :
    Reads (parseUnless stop read (ps ++ rest)) o rest := by
  cases h with
  | none =>
      obtain ⟨l, mid, rfl⟩ := hrest
      rw [List.nil_append, parseUnless, takeSymbol?_cons]
      exact reads_ok.2 rfl
  | some form =>
      rw [parseUnless, takeSymbol?_eq_none.2 (hstart _ form)]
      exact .bind (hread _ form) fun _ => reads_pure.2 rfl

theorem ForHeadForm.completes {ps : List Piece} {head : ForHead} (h : ForHeadForm ps head)
    (rest : List Piece) : Reads (parseForHead last (ps ++ rest)) head rest := by
  cases h with
  | @mk is ts ss init test step l l₁ l₂ l' initForm testForm stepForm =>
      have hpieces : .token l (.symbol .openParen) :: is ++ .token l₁ (.symbol .semicolon) :: ts ++
            .token l₂ (.symbol .semicolon) :: ss ++ [.token l' (.symbol .closeParen)] ++ rest =
          .token l (.symbol .openParen) :: (is ++ .token l₁ (.symbol .semicolon) :: (ts ++
            .token l₂ (.symbol .semicolon) :: (ss ++ .token l' (.symbol .closeParen) :: rest))) := by
        simp
      rw [hpieces]
      refine .expectSymbol fun _ => ?_
      refine .bind (initForm.completes ⟨_, _, rfl⟩ ?_ fun _ form => form.completes last _ _) fun _ => ?_
      · intro c form
        cases form with
        | declaration form =>
            obtain ⟨_, _, rfl⟩ := form.head
            rintro ⟨_, _, ⟨⟩⟩
        | assignment form =>
            obtain ⟨_, _, _, rfl⟩ := form.head
            rintro ⟨_, _, ⟨⟩⟩
      refine .expectSymbol fun _ => ?_
      refine .bind (testForm.completes ⟨_, _, rfl⟩ (fun _ form => form.not_startsWith_semicolon)
        fun _ form => form.completes last _ (stopsAt_symbol rfl)) fun _ => ?_
      refine .expectSymbol fun _ => ?_
      refine .bind (stepForm.completes ⟨_, _, rfl⟩ ?_ fun _ form => form.completes last rfl _ _) fun _ => ?_
      · intro c form
        obtain ⟨_, _, _, rfl⟩ := form.head
        rintro ⟨_, _, ⟨⟩⟩
      exact .expectSymbol fun _ => reads_pure.2 rfl

theorem VarForm.skips {vs rest : List Piece} (h : VarForm vs) (hrest : ¬ StartsWith (.keyword .var) rest) :
    (skipVar (vs ++ rest)).1 = rest := by
  cases h with
  | absent => rw [List.nil_append, skipVar, takeKeyword?_eq_none.2 hrest]
  | present l => simp only [skipVar, List.cons_append, List.nil_append, takeKeyword?_cons]

theorem ForEachHeadForm.completes {ps : List Piece} {head : String × Expr} (h : ForEachHeadForm ps head)
    (rest : List Piece) : Reads (parseForEachHead last (ps ++ rest)) head rest := by
  cases h with
  | @mk vs name qs e l l₁ l₂ l' varForm form =>
      have hpieces : .token l (.symbol .openParen) :: vs ++ .token l₁ (.ident name) ::
            .token l₂ (.keyword .inside) :: qs ++ [.token l' (.symbol .closeParen)] ++ rest =
          .token l (.symbol .openParen) :: (vs ++ .token l₁ (.ident name) ::
            .token l₂ (.keyword .inside) :: (qs ++ .token l' (.symbol .closeParen) :: rest)) := by
        simp
      rw [hpieces]
      refine .expectSymbol fun _ => ?_
      refine .bind (reads_expectIdent.2 ⟨l₁, varForm.skips ?_⟩) fun _ => ?_
      · rintro ⟨_, _, ⟨⟩⟩
      refine .expectKeyword fun _ => ?_
      refine .bind (form.completes last _ (stopsAt_symbol rfl)) fun _ => ?_
      exact .expectSymbol fun _ => reads_pure.2 rfl

/-! ## Statements -/

theorem StartsWith.of_append {t : Token} {ps rest : List Piece} (h : StartsWith t (ps ++ rest))
    (hps : ps ≠ []) : StartsWith t ps := by
  obtain ⟨l, mid, he⟩ := h
  cases ps with
  | nil => exact absurd rfl hps
  | cons p ps =>
      cases he
      exact ⟨l, ps, rfl⟩

/-- A statement starts with a piece, and neither with a closing brace nor with an `else`. -/
theorem StatementForm.head {d : Bool} {ps : List Piece} {is : List Instruction}
    (h : StatementForm d ps is) :
    ∃ p mid, ps = p :: mid ∧ ∀ rest, ¬ StartsWith (.symbol .closeBrace) (p :: rest) ∧
      ¬ StartsWith (.keyword .orElse) (p :: rest) := by
  cases h with
  | text | empty | scope | choice | forLoop | forEach | whileLoop =>
      exact ⟨_, _, rfl, fun rest => ⟨by rintro ⟨_, _, ⟨⟩⟩, by rintro ⟨_, _, ⟨⟩⟩⟩⟩
  | change l form =>
      cases form with
      | declaration form =>
          obtain ⟨l, mid, rfl⟩ := form.head
          exact ⟨_, _, rfl, fun rest => ⟨by rintro ⟨_, _, ⟨⟩⟩, by rintro ⟨_, _, ⟨⟩⟩⟩⟩
      | assignment form =>
          obtain ⟨l, name, mid, rfl⟩ := form.head
          exact ⟨_, _, rfl, fun rest => ⟨by rintro ⟨_, _, ⟨⟩⟩, by rintro ⟨_, _, ⟨⟩⟩⟩⟩

theorem StatementsForm.not_startsWith_else {ps rest : List Piece} {is : List Instruction}
    (h : StatementsForm ps is) (hrest : ¬ StartsWith (.keyword .orElse) rest) :
    ¬ StartsWith (.keyword .orElse) (ps ++ rest) := by
  cases h with
  | nil => exact hrest
  | cons first more =>
      obtain ⟨p, mid, rfl, hp⟩ := first.head
      exact (hp _).2

theorem BodyForm.ne_nil {d : Bool} {ps : List Piece} {is : List Instruction} (h : BodyForm d ps is) :
    ps ≠ [] := by
  cases h with
  | braced => simp
  | single form _ =>
      obtain ⟨p, mid, rfl, _⟩ := form.head
      simp

mutual

theorem StatementForm.completes {d : Bool} {ps : List Piece} {is : List Instruction}
    (h : StatementForm d ps is) (rest : List Piece)
    (helse : d = true → ¬ StartsWith (.keyword .orElse) rest) :
    Reads (parseStatement last (ps ++ rest)) is rest := by
  match h with
  | .text l output =>
      rw [List.cons_append, parseStatement]
      exact reads_ok.2 rfl
  | .empty l =>
      rw [List.cons_append, parseStatement]
      exact reads_ok.2 rfl
  | .scope l l' form =>
      rw [List.append_assoc, List.cons_append, parseStatement]
      exact .bind (form.completes l' rest) fun _ => reads_pure.2 rfl
  | .change l (.declaration form) =>
      have hread := form.completes last l rest
      obtain ⟨m, mid, rfl⟩ := form.head
      rw [List.append_assoc, List.cons_append, parseStatement]
      refine .bind hread fun _ => ?_
      exact .expectSymbol fun _ => reads_pure.2 rfl
  | .change l (.assignment form) =>
      have hread := form.completes last (s := .semicolon) rfl l rest
      obtain ⟨m, name, mid, rfl⟩ := form.head
      rw [List.append_assoc, List.cons_append, parseStatement]
      refine .bind hread fun _ => ?_
      exact .expectSymbol fun _ => reads_pure.2 rfl
  | .choice l form =>
      rw [List.cons_append, parseStatement]
      exact .bind (form.completes rest helse) fun _ => reads_pure.2 rfl
  | .forLoop l headForm form =>
      rw [List.append_assoc, List.cons_append, parseStatement]
      refine .bind (headForm.completes last _) fun _ => ?_
      exact .bind (form.completes rest helse) fun _ => reads_pure.2 rfl
  | .forEach l headForm form =>
      rw [List.append_assoc, List.cons_append, parseStatement]
      refine .bind (headForm.completes last _) fun _ => ?_
      exact .bind (form.completes rest helse) fun _ => reads_pure.2 rfl
  | .whileLoop l testForm form =>
      rw [List.append_assoc, List.cons_append, parseStatement]
      refine .bind (testForm.completes last _) fun _ => ?_
      exact .bind (form.completes rest helse) fun _ => reads_pure.2 rfl

theorem StatementsForm.completes {ps : List Piece} {is : List Instruction} (h : StatementsForm ps is)
    (l : Nat) (rest : List Piece) :
    Reads (parseBraced last (ps ++ .token l (.symbol .closeBrace) :: rest)) is rest := by
  match h with
  | .nil => exact (reads_parseBraced_close last).2 ⟨rfl, rfl⟩
  | .cons first more =>
      have hmore := more.completes l rest
      have hclose : ¬ StartsWith (.keyword .orElse) (.token l (.symbol .closeBrace) :: rest) := by
        rintro ⟨_, _, ⟨⟩⟩
      have hfirst := first.completes _ fun _ => more.not_startsWith_else hclose
      obtain ⟨p, mid, rfl, hp⟩ := first.head
      rw [List.append_assoc, List.cons_append]
      exact (reads_parseBraced_cons last (hp _).1).2 ⟨_, _, _, hfirst, hmore, rfl⟩

theorem BodyForm.completes {d : Bool} {ps : List Piece} {is : List Instruction} (h : BodyForm d ps is)
    (rest : List Piece) (helse : d = true → ¬ StartsWith (.keyword .orElse) rest) :
    Reads (parseBody last (ps ++ rest)) is rest := by
  match h with
  | .braced l l' form =>
      rw [List.append_assoc, List.cons_append, parseBody, takeSymbol?_cons]
      exact .bind (form.completes l' rest) fun _ => reads_pure.2 rfl
  | .single form hbrace =>
      have hread := form.completes rest helse
      obtain ⟨p, mid, rfl, _⟩ := form.head
      have hnone : takeSymbol? .openBrace (p :: mid ++ rest) = none :=
        takeSymbol?_eq_none.2 fun hstart => hbrace (hstart.of_append (by simp))
      rw [parseBody, hnone]
      exact hread

theorem ArmsForm.completes {d : Bool} {ps : List Piece} {arms : Arms} (h : ArmsForm d ps arms)
    (rest : List Piece) (helse : d = true → ¬ StartsWith (.keyword .orElse) rest) :
    Reads (parseArms last (ps ++ rest)) arms rest := by
  match h with
  | .last testForm form =>
      have hbody := form.completes rest fun _ => helse rfl
      rw [List.append_assoc]
      refine (reads_parseArms last).2 ⟨_, _, _, _, testForm.completes last _, hbody, ?_⟩
      exact .inl ⟨helse rfl, rfl, rfl⟩
  | .otherwise l testForm form otherForm hif =>
      rw [List.append_assoc, List.append_assoc]
      refine (reads_parseArms last).2 ⟨_, _, _, _, testForm.completes last _, form.completes _ nofun, ?_⟩
      refine .inr ⟨l, _, rfl, .inr ⟨?_, _, otherForm.completes rest helse, rfl⟩⟩
      exact fun hstart => hif (hstart.of_append otherForm.ne_nil)
  | .next l l' testForm form nextForm =>
      rw [List.append_assoc, List.append_assoc]
      refine (reads_parseArms last).2 ⟨_, _, _, _, testForm.completes last _, form.completes _ nofun, ?_⟩
      exact .inr ⟨l, _, rfl, .inl ⟨l', _, _, rfl, nextForm.completes rest helse, rfl⟩⟩

end

theorem StatementsForm.parses {ps : List Piece} {is : List Instruction} (h : StatementsForm ps is) :
    parseBlock last ps = .ok is := by
  induction hn : ps.length using Nat.strongRecOn generalizing ps is with
  | _ n ih =>
      cases h with
      | nil => rw [parseBlock]
      | cons first more =>
          have hend : ¬ StartsWith (.keyword .orElse) [] := by rintro ⟨_, _, ⟨⟩⟩
          have hnext := more.not_startsWith_else hend
          rw [List.append_nil] at hnext
          have hfirst := first.completes last _ fun _ => hnext
          obtain ⟨p, mid, rfl, _⟩ := first.head
          rw [List.length_append, List.length_cons] at hn
          have hmore := ih _ (by omega) more rfl
          exact (parseBlock_cons_eq_ok last).2 ⟨_, _, _, hfirst, hmore, rfl⟩

/-- A code block is read if and only if its pieces are statements, and then as what they mean. -/
theorem parseBlock_eq_ok_iff {ps : List Piece} {is : List Instruction} :
    parseBlock last ps = .ok is ↔ StatementsForm ps is :=
  ⟨parseBlock_takes last, fun h => h.parses last⟩

end MailTemplate
