import MailTemplate.Proofs.Grammar.ExprReader
import MailTemplate.Proofs.Grammar.Statement
import MailTemplate.Proofs.Results

/-!
# Reading statements takes what the grammar allows

What a reader takes off the front of some pieces has the form of what it gives
(`parseStatement_takes`), and a code block that is read is statements (`parseBlock_takes`).
-/

namespace MailTemplate

variable (last : Nat)

/-! ## Parts of statements -/

theorem AssignSign.ofSymbol?_eq_some {s : Symbol} {sign : AssignSign} (h : ofSymbol? s = some sign) :
    (s = .increment ∧ sign = complete .add) ∨ (s = .decrement ∧ sign = complete .sub) ∨
      ∃ op : AssignOp, s = op.symbol ∧ sign = operand op := by
  cases s <;> simp [ofSymbol?, AssignOp.ofSymbol?] at h <;> subst h
  case increment => exact .inl ⟨rfl, rfl⟩
  case decrement => exact .inr (.inl ⟨rfl, rfl⟩)
  all_goals exact .inr (.inr ⟨_, rfl, rfl⟩)

theorem reads_expectAssignSign {ps rest : List Piece} {sign : AssignSign}
    (h : Reads (expectAssignSign last ps) sign rest) :
    ∃ l s, ps = .token l (.symbol s) :: rest ∧ AssignSign.ofSymbol? s = some sign := by
  unfold expectAssignSign at h
  split at h
  · split at h
    · rename_i l s mid _ sign' hs
      cases reads_ok.1 h
      exact ⟨l, s, rfl, hs⟩
    · exact absurd h not_reads_error
  · exact absurd h not_reads_error

theorem parseAssignment_takes (ps : List Piece) :
    Takes AssignmentForm ps (parseAssignment last ps) := by
  intro c rest h
  obtain ⟨name, mid, _, hname, h⟩ := reads_bind.1 h
  obtain ⟨l, rfl⟩ := reads_expectIdent.1 hname
  obtain ⟨sign, mid, _, hsign, h⟩ := reads_bind.1 h
  obtain ⟨l', s, rfl, hs⟩ := reads_expectAssignSign last hsign
  rcases AssignSign.ofSymbol?_eq_some hs with ⟨rfl, rfl⟩ | ⟨rfl, rfl⟩ | ⟨op, rfl, rfl⟩
  · cases reads_pure.1 h
    exact ⟨_, rfl, .increment l l'⟩
  · cases reads_pure.1 h
    exact ⟨_, rfl, .decrement l l'⟩
  · obtain ⟨e, mid, _, he, h⟩ := reads_bind.1 h
    obtain ⟨front, rfl, form⟩ := parseExpr_takes last _ _ _ he
    cases reads_pure.1 h
    exact ⟨_, rfl, .operand l l' op form⟩

theorem parseDeclaration_takes (ps : List Piece) :
    Takes DeclarationForm ps (parseDeclaration last ps) := by
  intro c rest h
  obtain ⟨l, mid, _, rfl, h⟩ := reads_expectKeyword_bind.1 h
  obtain ⟨name, mid, _, hname, h⟩ := reads_bind.1 h
  obtain ⟨l', rfl⟩ := reads_expectIdent.1 hname
  simp only at h
  split at h
  · cases reads_pure.1 h
    exact ⟨_, rfl, .bare l l'⟩
  · rename_i hassign
    obtain ⟨m, rfl⟩ := takeSymbol?_eq_some hassign
    obtain ⟨e, mid, _, he, h⟩ := reads_bind.1 h
    obtain ⟨front, rfl, form⟩ := parseExpr_takes last _ _ _ he
    cases reads_pure.1 h
    exact ⟨_, rfl, .value l l' m form⟩

theorem parseChange_takes (ps : List Piece) : Takes ChangeForm ps (parseChange last ps) := by
  intro c rest h
  unfold parseChange at h
  split at h
  · obtain ⟨front, hfront, form⟩ := parseDeclaration_takes last _ _ _ h
    exact ⟨front, hfront, .declaration form⟩
  · obtain ⟨front, hfront, form⟩ := parseAssignment_takes last _ _ _ h
    exact ⟨front, hfront, .assignment form⟩

theorem parseCondition_takes (ps : List Piece) : Takes ConditionForm ps (parseCondition last ps) := by
  intro e rest h
  obtain ⟨l, mid, _, rfl, h⟩ := reads_expectSymbol_bind.1 h
  obtain ⟨_, mid, _, he, h⟩ := reads_bind.1 h
  obtain ⟨l', mid, _, rfl, h⟩ := reads_expectSymbol_bind.1 h
  obtain ⟨front, rfl, form⟩ := parseExpr_takes last _ _ _ he
  cases reads_pure.1 h
  exact ⟨_, by simp, .mk l l' form⟩

theorem parseUnless_takes {α : Type} {form : List Piece → α → Prop} {stop : Symbol}
    {read : (ps : List Piece) → Except SyntaxError (Parsed α ps)}
    (hread : ∀ ps, Takes form ps (read ps)) (ps : List Piece) :
    Takes (OptionForm form) ps (parseUnless stop read ps) := by
  intro o rest h
  unfold parseUnless at h
  split at h
  · cases reads_ok.1 h
    exact ⟨[], rfl, .none⟩
  · obtain ⟨a, mid, _, ha, h⟩ := reads_bind.1 h
    obtain ⟨front, rfl, hform⟩ := hread _ _ _ ha
    cases reads_pure.1 h
    exact ⟨front, rfl, .some hform⟩

theorem parseForHead_takes (ps : List Piece) : Takes ForHeadForm ps (parseForHead last ps) := by
  intro head rest h
  obtain ⟨l, mid, _, rfl, h⟩ := reads_expectSymbol_bind.1 h
  obtain ⟨init, mid, _, hinit, h⟩ := reads_bind.1 h
  obtain ⟨l₁, mid, _, rfl, h⟩ := reads_expectSymbol_bind.1 h
  obtain ⟨test, mid, _, htest, h⟩ := reads_bind.1 h
  obtain ⟨l₂, mid, _, rfl, h⟩ := reads_expectSymbol_bind.1 h
  obtain ⟨step, mid, _, hstep, h⟩ := reads_bind.1 h
  obtain ⟨l', mid, _, rfl, h⟩ := reads_expectSymbol_bind.1 h
  obtain ⟨is, rfl, initForm⟩ := parseUnless_takes (parseChange_takes last) _ _ _ hinit
  obtain ⟨ts, rfl, testForm⟩ := parseUnless_takes (parseExpr_takes last) _ _ _ htest
  obtain ⟨ss, rfl, stepForm⟩ := parseUnless_takes (parseAssignment_takes last) _ _ _ hstep
  cases reads_pure.1 h
  exact ⟨_, by simp, .mk l l₁ l₂ l' initForm testForm stepForm⟩

theorem skipVar_takes (ps : List Piece) : ∃ front, ps = front ++ (skipVar ps).1 ∧ VarForm front := by
  unfold skipVar
  split
  · rename_i hvar
    obtain ⟨l, rfl⟩ := takeKeyword?_eq_some hvar
    exact ⟨_, rfl, .present l⟩
  · exact ⟨[], rfl, .absent⟩

theorem parseForEachHead_takes (ps : List Piece) :
    Takes ForEachHeadForm ps (parseForEachHead last ps) := by
  intro head rest h
  obtain ⟨l, mid, _, rfl, h⟩ := reads_expectSymbol_bind.1 h
  obtain ⟨vs, hvs, varForm⟩ := skipVar_takes mid
  obtain ⟨name, mid, _, hname, h⟩ := reads_bind.1 h
  obtain ⟨l₁, (hl₁ : (skipVar _).1 = _)⟩ := reads_expectIdent.1 hname
  obtain ⟨l₂, mid, _, rfl, h⟩ := reads_expectKeyword_bind.1 h
  obtain ⟨e, mid, _, he, h⟩ := reads_bind.1 h
  obtain ⟨l', mid, _, rfl, h⟩ := reads_expectSymbol_bind.1 h
  obtain ⟨front, rfl, form⟩ := parseExpr_takes last _ _ _ he
  cases reads_pure.1 h
  exact ⟨_, by simp [hvs, hl₁], .mk l l₁ l₂ l' varForm form⟩

/-! ## Statements -/

/-- What `read` takes off the front of `ps` has the form of what it gives, and no `else` is left
that the form could take. -/
def TakesElse {α : Type} {P : α × List Piece → Prop} (form : Bool → List Piece → α → Prop)
    (ps : List Piece) (read : Except SyntaxError { r // P r }) : Prop :=
  ∀ a rest, Reads read a rest → ∃ d front, ps = front ++ rest ∧ form d front a ∧
    (d = true → ¬ StartsWith (.keyword .orElse) rest)

/-- Statements up to the brace that closes them. -/
def BracedForm (ps : List Piece) (is : List Instruction) : Prop :=
  ∃ qs l, ps = qs ++ [.token l (.symbol .closeBrace)] ∧ StatementsForm qs is

theorem reads_parseBraced_close {l : Nat} {ps rest : List Piece} {is : List Instruction} :
    Reads (parseBraced last (.token l (.symbol .closeBrace) :: ps)) is rest ↔
      is = [] ∧ rest = ps := by
  rw [parseBraced, if_pos rfl, reads_ok]
  simp [eq_comm]

theorem reads_parseBraced_cons {p : Piece} {ps rest : List Piece} {is : List Instruction}
    (hp : ¬ StartsWith (.symbol .closeBrace) (p :: ps)) :
    Reads (parseBraced last (p :: ps)) is rest ↔
      ∃ first mid more, Reads (parseStatement last (p :: ps)) first mid ∧
        Reads (parseBraced last mid) more rest ∧ is = first ++ more := by
  cases p with
  | text l output =>
      rw [parseBraced, parseStatement]
      constructor
      · intro h
        obtain ⟨more, mid, _, hmore, h⟩ := reads_bind.1 h
        cases reads_pure.1 h
        exact ⟨output, ps, more, reads_ok.2 rfl, hmore, rfl⟩
      · rintro ⟨first, mid, more, hfirst, hmore, rfl⟩
        cases reads_ok.1 hfirst
        exact .bind hmore fun _ => reads_pure.2 rfl
  | token l t =>
      rw [parseBraced.eq_3 _ _ _ _ (by rintro rfl; exact hp ⟨l, ps, rfl⟩), if_neg Bool.false_ne_true]
      constructor
      · intro h
        obtain ⟨first, mid, _, hfirst, h⟩ := reads_bind.1 h
        obtain ⟨more, _, _, hmore, h⟩ := reads_bind.1 h
        cases reads_pure.1 h
        exact ⟨first, mid, more, hfirst, hmore, rfl⟩
      · rintro ⟨first, mid, more, hfirst, hmore, rfl⟩
        refine .bind hfirst fun _ => ?_
        exact .bind hmore fun _ => reads_pure.2 rfl

/-- The arms of a choice are read to the last one, to the body behind `else`, or to a further `if`
behind `else`. -/
theorem reads_parseArms {ps rest : List Piece} {arms : Arms} :
    Reads (parseArms last ps) arms rest ↔
      ∃ test mid body behind, Reads (parseCondition last ps) test mid ∧
        Reads (parseBody last mid) body behind ∧
        (¬ StartsWith (.keyword .orElse) behind ∧ arms = .test test body .done ∧ rest = behind ∨
          ∃ l els, behind = .token l (.keyword .orElse) :: els ∧
            ((∃ l' more next, els = .token l' (.keyword .ifThen) :: more ∧
                Reads (parseArms last more) next rest ∧ arms = .test test body next) ∨
              (¬ StartsWith (.keyword .ifThen) els ∧ ∃ other, Reads (parseBody last els) other rest ∧
                arms = .test test body (.otherwise other)))) := by
  constructor
  · intro h
    rw [parseArms] at h
    obtain ⟨test, mid, _, htest, h⟩ := reads_bind.1 h
    obtain ⟨body, behind, _, hbody, h⟩ := reads_bind.1 h
    refine ⟨test, mid, body, behind, htest, hbody, ?_⟩
    simp only at h
    split at h
    · rename_i hnone
      cases reads_pure.1 h
      exact .inl ⟨takeKeyword?_eq_none.1 hnone, rfl, rfl⟩
    · rename_i els _ hsome
      obtain ⟨l, rfl⟩ := takeKeyword?_eq_some hsome
      refine .inr ⟨l, els, rfl, ?_⟩
      split at h
      · rename_i more _ hif
        obtain ⟨l', rfl⟩ := takeKeyword?_eq_some hif
        obtain ⟨next, _, _, hnext, h⟩ := reads_bind.1 h
        cases reads_pure.1 h
        exact .inl ⟨l', more, next, rfl, hnext, rfl⟩
      · rename_i hnone
        obtain ⟨other, _, _, hother, h⟩ := reads_bind.1 h
        cases reads_pure.1 h
        exact .inr ⟨takeKeyword?_eq_none.1 hnone, other, hother, rfl⟩
  · rintro ⟨test, mid, body, behind, htest, hbody, h⟩
    rw [parseArms]
    refine .bind htest fun _ => .bind hbody fun _ => ?_
    rcases h with ⟨hnone, rfl, rfl⟩ | ⟨l, els, rfl, h⟩
    · simp only [takeKeyword?_eq_none.2 hnone]
      exact reads_pure.2 rfl
    · simp only [takeKeyword?_cons]
      rcases h with ⟨l', more, next, rfl, hnext, rfl⟩ | ⟨hif, other, hother, rfl⟩
      · simp only [takeKeyword?_cons]
        exact .bind hnext fun _ => reads_pure.2 rfl
      · simp only [takeKeyword?_eq_none.2 hif]
        exact .bind hother fun _ => reads_pure.2 rfl

theorem parseBlock_cons_eq_ok {p : Piece} {ps : List Piece} {is : List Instruction} :
    parseBlock last (p :: ps) = .ok is ↔
      ∃ first mid more, Reads (parseStatement last (p :: ps)) first mid ∧
        parseBlock last mid = .ok more ∧ is = first ++ more := by
  rw [parseBlock]
  constructor
  · intro h
    obtain ⟨⟨⟨first, mid⟩, hlt⟩, hfirst, h⟩ := bind_eq_ok_iff.1 h
    obtain ⟨more, hmore, h⟩ := bind_eq_ok_iff.1 h
    cases h
    exact ⟨first, mid, more, ⟨hlt, hfirst⟩, hmore, rfl⟩
  · rintro ⟨first, mid, more, ⟨hlt, hfirst⟩, hmore, rfl⟩
    exact bind_eq_ok_iff.2 ⟨_, hfirst, bind_eq_ok_iff.2 ⟨more, hmore, rfl⟩⟩

theorem parseStatement_takes (ps : List Piece) :
    TakesElse StatementForm ps (parseStatement last ps) := by
  refine parseStatement.induct (fun ps => TakesElse StatementForm ps (parseStatement last ps))
    (fun ps => TakesElse BodyForm ps (parseBody last ps))
    (fun ps => Takes BracedForm ps (parseBraced last ps))
    (fun ps => TakesElse ArmsForm ps (parseArms last ps))
    ?text ?empty ?scope ?declaration ?assignment ?choice ?forLoop ?forEach ?whileLoop ?other
    ?bodyBraced ?bodySingle ?bracedEnd ?bracedClose ?bracedToken ?bracedText ?arms ps
  case text =>
    intro l output rest is mid h
    rw [parseStatement] at h
    cases reads_ok.1 h
    exact ⟨false, _, rfl, .text l output, nofun⟩
  case empty =>
    intro l rest is mid h
    rw [parseStatement] at h
    cases reads_ok.1 h
    exact ⟨false, _, rfl, .empty l, nofun⟩
  case scope =>
    intro l rest ih is mid h
    rw [parseStatement] at h
    obtain ⟨body, _, _, hbody, h⟩ := reads_bind.1 h
    obtain ⟨_, rfl, qs, l', rfl, form⟩ := ih _ _ hbody
    cases reads_pure.1 h
    exact ⟨false, _, by simp, .scope l l' form, nofun⟩
  case declaration =>
    intro l rest is mid h
    rw [parseStatement] at h
    obtain ⟨c, _, _, hc, h⟩ := reads_bind.1 h
    obtain ⟨m, _, _, rfl, h⟩ := reads_expectSymbol_bind.1 h
    obtain ⟨front, hfront, form⟩ := parseDeclaration_takes last _ _ _ hc
    cases reads_pure.1 h
    exact ⟨false, _, by simp [hfront], .change m (.declaration form), nofun⟩
  case assignment =>
    intro l name rest is mid h
    rw [parseStatement] at h
    obtain ⟨c, _, _, hc, h⟩ := reads_bind.1 h
    obtain ⟨m, _, _, rfl, h⟩ := reads_expectSymbol_bind.1 h
    obtain ⟨front, hfront, form⟩ := parseAssignment_takes last _ _ _ hc
    cases reads_pure.1 h
    exact ⟨false, _, by simp [hfront], .change m (.assignment form), nofun⟩
  case choice =>
    intro l rest ih is mid h
    rw [parseStatement] at h
    obtain ⟨arms, _, _, harms, h⟩ := reads_bind.1 h
    obtain ⟨d, front, rfl, form, helse⟩ := ih _ _ harms
    cases reads_pure.1 h
    exact ⟨d, _, rfl, .choice l form, helse⟩
  case forLoop =>
    intro l rest ih is mid h
    rw [parseStatement] at h
    obtain ⟨head, _, hlt, hhead, h⟩ := reads_bind.1 h
    obtain ⟨body, _, _, hbody, h⟩ := reads_bind.1 h
    obtain ⟨front, rfl, headForm⟩ := parseForHead_takes last _ _ _ hhead
    obtain ⟨d, bodyFront, rfl, form, helse⟩ := ih head _ hlt _ _ hbody
    cases reads_pure.1 h
    exact ⟨d, _, by simp, .forLoop l headForm form, helse⟩
  case forEach =>
    intro l rest ih is mid h
    rw [parseStatement] at h
    obtain ⟨⟨name, e⟩, _, hlt, hhead, h⟩ := reads_bind.1 h
    obtain ⟨body, _, _, hbody, h⟩ := reads_bind.1 h
    obtain ⟨front, rfl, headForm⟩ := parseForEachHead_takes last _ _ _ hhead
    obtain ⟨d, bodyFront, rfl, form, helse⟩ := ih name e _ hlt _ _ hbody
    cases reads_pure.1 h
    exact ⟨d, _, by simp, .forEach l headForm form, helse⟩
  case whileLoop =>
    intro l rest ih is mid h
    rw [parseStatement] at h
    obtain ⟨test, _, hlt, htest, h⟩ := reads_bind.1 h
    obtain ⟨body, _, _, hbody, h⟩ := reads_bind.1 h
    obtain ⟨front, rfl, testForm⟩ := parseCondition_takes last _ _ _ htest
    obtain ⟨d, bodyFront, rfl, form, helse⟩ := ih test _ hlt _ _ hbody
    cases reads_pure.1 h
    exact ⟨d, _, by simp, .whileLoop l testForm form, helse⟩
  case other =>
    intro ps h₁ h₂ h₃ h₄ h₅ h₆ h₇ h₈ h₉ is mid h
    rw [parseStatement.eq_10 _ _ h₁ h₂ h₃ h₄ h₅ h₆ h₇ h₈ h₉] at h
    exact absurd h not_reads_error
  case bodyBraced =>
    intro ps rest hlt hbrace ih is mid h
    rw [parseBody, hbrace] at h
    obtain ⟨body, _, _, hbody, h⟩ := reads_bind.1 h
    obtain ⟨l, rfl⟩ := takeSymbol?_eq_some hbrace
    obtain ⟨_, rfl, qs, l', rfl, form⟩ := ih _ _ hbody
    cases reads_pure.1 h
    exact ⟨false, _, by simp, .braced l l' form, nofun⟩
  case bodySingle =>
    intro ps hbrace ih is mid h
    rw [parseBody, hbrace] at h
    obtain ⟨d, front, rfl, form, helse⟩ := ih _ _ h
    refine ⟨d, front, rfl, .single form ?_, helse⟩
    rintro ⟨l, qs, rfl⟩
    exact takeSymbol?_eq_none.1 hbrace ⟨l, _, rfl⟩
  case bracedEnd =>
    intro is mid h
    rw [parseBraced] at h
    exact absurd h not_reads_error
  case bracedClose =>
    intro l t rest ht is mid h
    obtain rfl : t = .symbol .closeBrace := by
      split at ht
      · rfl
      · cases ht
    obtain ⟨rfl, rfl⟩ := (reads_parseBraced_close last).1 h
    exact ⟨_, rfl, [], l, rfl, .nil⟩
  case bracedToken =>
    intro l t rest ht ihFirst ihMore is mid h
    have hbrace : ¬ StartsWith (.symbol .closeBrace) (.token l t :: rest) := by
      rintro ⟨_, _, ⟨⟩⟩
      exact ht rfl
    obtain ⟨first, mid₁, more, hfirst, hmore, rfl⟩ := (reads_parseBraced_cons last hbrace).1 h
    obtain ⟨d, front, hfront, firstForm, _⟩ := ihFirst _ _ hfirst
    obtain ⟨_, rfl, qs, l', rfl, form⟩ := ihMore first _ hfirst.1 _ _ hmore
    exact ⟨front ++ (qs ++ [_]), by simpa using hfront, _, l', by simp, .cons firstForm form⟩
  case bracedText =>
    intro l output rest ih is mid h
    rw [parseBraced] at h
    obtain ⟨more, _, _, hmore, h⟩ := reads_bind.1 h
    obtain ⟨_, rfl, qs, l', rfl, form⟩ := ih _ _ hmore
    cases reads_pure.1 h
    exact ⟨_, rfl, _, l', rfl, .cons (.text l output) form⟩
  case arms =>
    intro ps ihBody ihNext ihOther arms mid h
    obtain ⟨test, mid₁, body, mid₂, htest, hbody, hbehind⟩ := (reads_parseArms last).1 h
    have hlt := htest.1
    have hlt' := hbody.1
    obtain ⟨ts, rfl, testForm⟩ := parseCondition_takes last _ _ _ htest
    obtain ⟨d, bs, rfl, bodyForm, helse⟩ := ihBody test _ hlt _ _ hbody
    rcases hbehind with ⟨hnone, rfl, rfl⟩ | ⟨l, els, rfl, hels⟩
    · exact ⟨true, ts ++ bs, by simp, .last testForm bodyForm, fun _ => hnone⟩
    · obtain rfl : d = false := by
        cases d with
        | false => rfl
        | true => exact absurd ⟨l, _, rfl⟩ (helse rfl)
      rcases hels with ⟨l', more, next, rfl, hnext, rfl⟩ | ⟨hif, other, hother, rfl⟩
      · obtain ⟨d, ns, rfl, nextForm, helse⟩ :=
          ihNext test _ hlt body _ hlt' _ (Nat.lt_succ_self _) _ (Nat.lt_succ_self _) _ _ hnext
        exact ⟨d, _, by simp, .next l l' testForm bodyForm nextForm, helse⟩
      · obtain ⟨d, os, rfl, otherForm, helse⟩ :=
          ihOther test _ hlt body _ hlt' _ (Nat.lt_succ_self _) _ _ hother
        refine ⟨d, _, by simp, .otherwise l testForm bodyForm otherForm ?_, helse⟩
        rintro ⟨l', qs, rfl⟩
        exact hif ⟨l', _, rfl⟩

theorem parseBlock_takes {ps : List Piece} {is : List Instruction} (h : parseBlock last ps = .ok is) :
    StatementsForm ps is := by
  induction ps using parseBlock.induct generalizing is with
  | case1 =>
      rw [parseBlock] at h
      cases h
      exact .nil
  | case2 p ps ih =>
      obtain ⟨first, mid, more, hfirst, hmore, rfl⟩ := (parseBlock_cons_eq_ok last).1 h
      have hlt := hfirst.1
      obtain ⟨d, front, hfront, form, _⟩ := parseStatement_takes last _ _ _ hfirst
      rw [hfront]
      exact .cons form (ih first mid hlt hmore)

end MailTemplate
