import MailTemplate.Proofs.Grammar.StatementReader
import MailTemplate.Proofs.Token.Braces
import Mathlib

/-!
# Braces in the grammar

A statement opens each of its braces before it closes it, and closes all of them
(`StatementForm.pairedBraces`). A reader of statements misses a closing brace at the end only if more
braces are opened than closed (`parseStatement_missesFrom`), and whole statements leave no closing
brace behind when none of the pieces closes more than was opened (`LeftOver.not_startsWith`).
-/

namespace MailTemplate

/-! ## As many opening as closing braces -/

def Piece.token? : Piece → Option Token
  | token _ t => some t
  | text .. => none

/-- The tokens among some pieces. -/
def tokensIn (ps : List Piece) : List Token := ps.filterMap Piece.token?

section Counts

variable {ps qs : List Piece} {l : Nat} {t : Token} {output : List Instruction}

@[simp]
theorem tokensIn_nil : tokensIn [] = [] := rfl

@[simp]
theorem tokensIn_token : tokensIn (.token l t :: ps) = t :: tokensIn ps := rfl

@[simp]
theorem tokensIn_text : tokensIn (.text l output :: ps) = tokensIn ps := rfl

@[simp]
theorem tokensIn_append : tokensIn (ps ++ qs) = tokensIn ps ++ tokensIn qs := List.filterMap_append

theorem tokensIn_map_token (l : Nat) (ts : List Token) : tokensIn (ts.map (.token l)) = ts := by
  simp [tokensIn, List.filterMap_map, Function.comp_def, Piece.token?]

end Counts

/-- As many braces are opened as closed. -/
def EvenBraces (ps : List Piece) : Prop := closings (tokensIn ps) = openings (tokensIn ps)

theorem EvenBraces.nil : EvenBraces [] := rfl

theorem EvenBraces.append {ps qs : List Piece} (hps : EvenBraces ps) (hqs : EvenBraces qs) :
    EvenBraces (ps ++ qs) := by
  simp only [EvenBraces, tokensIn_append, openings_append, closings_append] at *
  rw [hps, hqs]

theorem EvenBraces.cons {ps : List Piece} {l : Nat} {t : Token} (hopen : t.opens = false)
    (hclose : t.closes = false) (hps : EvenBraces ps) : EvenBraces (.token l t :: ps) := by
  simpa [EvenBraces, openings_cons, closings_cons, hopen, hclose] using hps

/-- Each brace is opened before it is closed, and closed in the end. -/
def PairedBraces (ps : List Piece) : Prop := Balanced (tokensIn ps)

section Paired

variable {ps qs : List Piece} {l : Nat} {t : Token}

theorem PairedBraces.even (h : PairedBraces ps) : EvenBraces ps := h.total

theorem PairedBraces.nil : PairedBraces [] := balanced_nil

theorem PairedBraces.append (hps : PairedBraces ps) (hqs : PairedBraces qs) : PairedBraces (ps ++ qs) := by
  rw [PairedBraces, tokensIn_append]
  exact Balanced.append hps hqs

theorem PairedBraces.cons (hopen : t.opens = false) (hclose : t.closes = false) (hps : PairedBraces ps) :
    PairedBraces (.token l t :: ps) :=
  (balanced_singleton hopen hclose).append hps

theorem PairedBraces.braced (l l' : Nat) (hps : PairedBraces ps) :
    PairedBraces (.token l (.symbol .openBrace) :: ps ++ [.token l' (.symbol .closeBrace)]) := by
  rw [PairedBraces, tokensIn_append]
  exact Balanced.braced hps

end Paired

theorem ExprForm.pairedBraces {t : Rank} {ps : List Piece} {e : Expr} (h : ExprForm t ps e) :
    PairedBraces ps := by
  induction h with
  | number | string | trueLit | falseLit | nullLit | ident => exact .cons rfl rfl .nil
  | primary _ ih | selection _ ih | operand _ ih | tighter _ ih | loosest _ ih => exact ih
  | parens l l' _ ih => exact (ih.cons rfl rfl).append (.cons rfl rfl .nil)
  | member l l' _ ih => exact ih.append (.cons rfl rfl (.cons rfl rfl .nil))
  | index l l' _ _ ih ihIndex =>
      exact (ih.append (ihIndex.cons rfl rfl)).append (.cons rfl rfl .nil)
  | unary l op _ ih => exact ih.cons (by cases op <;> rfl) (by cases op <;> rfl)
  | binary l op _ _ _ ihLeft ihRight =>
      exact ihLeft.append (ihRight.cons (by cases op <;> rfl) (by cases op <;> rfl))
  | cond l l' _ _ _ ihTest ihYes ihNo =>
      exact (ihTest.append (ihYes.cons rfl rfl)).append (ihNo.cons rfl rfl)

theorem AssignmentForm.pairedBraces {ps : List Piece} {c : Change} (h : AssignmentForm ps c) :
    PairedBraces ps := by
  cases h with
  | increment | decrement => exact .cons rfl rfl (.cons rfl rfl .nil)
  | operand l l' op form =>
      exact (form.pairedBraces.cons (by cases op <;> rfl) (by cases op <;> rfl)).cons rfl rfl

theorem DeclarationForm.pairedBraces {ps : List Piece} {c : Change} (h : DeclarationForm ps c) :
    PairedBraces ps := by
  cases h with
  | bare => exact .cons rfl rfl (.cons rfl rfl .nil)
  | value l l' m form => exact ((form.pairedBraces.cons rfl rfl).cons rfl rfl).cons rfl rfl

theorem ChangeForm.pairedBraces {ps : List Piece} {c : Change} (h : ChangeForm ps c) :
    PairedBraces ps := by
  cases h with
  | declaration form => exact form.pairedBraces
  | assignment form => exact form.pairedBraces

theorem OptionForm.pairedBraces {α : Type} {form : List Piece → α → Prop} {ps : List Piece}
    {o : Option α} (h : OptionForm form ps o) (hform : ∀ a, form ps a → PairedBraces ps) :
    PairedBraces ps := by
  cases h with
  | none => exact .nil
  | some form => exact hform _ form

theorem ConditionForm.pairedBraces {ps : List Piece} {e : Expr} (h : ConditionForm ps e) :
    PairedBraces ps := by
  cases h with
  | mk l l' form => exact (form.pairedBraces.cons rfl rfl).append (.cons rfl rfl .nil)

theorem ForHeadForm.pairedBraces {ps : List Piece} {head : ForHead} (h : ForHeadForm ps head) :
    PairedBraces ps := by
  cases h with
  | mk l l₁ l₂ l' init test step =>
      have hinit := init.pairedBraces fun _ => ChangeForm.pairedBraces
      have htest := test.pairedBraces fun _ => ExprForm.pairedBraces
      have hstep := step.pairedBraces fun _ => AssignmentForm.pairedBraces
      exact (((hinit.cons rfl rfl).append (htest.cons rfl rfl)).append (hstep.cons rfl rfl)).append
        (.cons rfl rfl .nil)

theorem VarForm.pairedBraces {ps : List Piece} (h : VarForm ps) : PairedBraces ps := by
  cases h with
  | absent => exact .nil
  | present => exact .cons rfl rfl .nil

theorem ForEachHeadForm.pairedBraces {ps : List Piece} {head : String × Expr}
    (h : ForEachHeadForm ps head) : PairedBraces ps := by
  cases h with
  | mk l l₁ l₂ l' var form =>
      exact ((var.pairedBraces.cons rfl rfl).append ((form.pairedBraces.cons rfl rfl).cons rfl rfl)).append
        (.cons rfl rfl .nil)

mutual

theorem StatementsForm.pairedBraces {ps : List Piece} {is : List Instruction}
    (h : StatementsForm ps is) : PairedBraces ps := by
  match h with
  | .nil => exact .nil
  | .cons first more => exact first.pairedBraces.append more.pairedBraces

theorem StatementForm.pairedBraces {d : Bool} {ps : List Piece} {is : List Instruction}
    (h : StatementForm d ps is) : PairedBraces ps := by
  match h with
  | .text .. => exact .nil
  | .empty _ => exact .cons rfl rfl .nil
  | .scope l l' form => exact form.pairedBraces.braced l l'
  | .change _ form => exact form.pairedBraces.append (.cons rfl rfl .nil)
  | .choice _ form => exact form.pairedBraces.cons rfl rfl
  | .forLoop _ head body => exact (head.pairedBraces.cons rfl rfl).append body.pairedBraces
  | .forEach _ head body => exact (head.pairedBraces.cons rfl rfl).append body.pairedBraces
  | .whileLoop _ test body => exact (test.pairedBraces.cons rfl rfl).append body.pairedBraces

theorem BodyForm.pairedBraces {d : Bool} {ps : List Piece} {is : List Instruction}
    (h : BodyForm d ps is) : PairedBraces ps := by
  match h with
  | .braced l l' form => exact form.pairedBraces.braced l l'
  | .single form _ => exact form.pairedBraces

theorem ArmsForm.pairedBraces {d : Bool} {ps : List Piece} {arms : Arms} (h : ArmsForm d ps arms) :
    PairedBraces ps := by
  match h with
  | .last test body => exact test.pairedBraces.append body.pairedBraces
  | .otherwise _ test body other _ =>
      exact (test.pairedBraces.append body.pairedBraces).append (other.pairedBraces.cons rfl rfl)
  | .next _ _ test body next =>
      exact (test.pairedBraces.append body.pairedBraces).append
        ((next.pairedBraces.cons rfl rfl).cons rfl rfl)

end

/-! ## Where a closing brace is missing -/

/-- The reader ran out of pieces where a brace had to be closed. -/
def SyntaxError.Unclosed (e : SyntaxError) : Prop := e.cause = .unexpectedEnd (.symbol .closeBrace)

/-- The reader fails, if at all, without missing a closing brace at the end. -/
abbrev MissesNoBrace {α : Type} (x : Except SyntaxError α) : Prop := FailsOnly (¬ ·.Unclosed) x

variable {last : Nat} {ps : List Piece}

theorem not_unclosed_unexpected {what : Expected} (h : what ≠ .symbol .closeBrace) :
    ¬ (unexpected last what ps).Unclosed := by
  unfold unexpected SyntaxError.Unclosed
  split
  · simpa using h
  · simp
  · simp

theorem expectSymbol_misses {s : Symbol} (h : s ≠ .closeBrace) :
    MissesNoBrace (expectSymbol last s ps) := by
  unfold expectSymbol
  split
  · exact failsOnly_ok
  · exact failsOnly_error.2 (not_unclosed_unexpected (by simpa using h))

theorem expectKeyword_misses {k : Keyword} : MissesNoBrace (expectKeyword last k ps) := by
  unfold expectKeyword
  split
  · exact failsOnly_ok
  · exact failsOnly_error.2 (not_unclosed_unexpected (by simp))

theorem expectIdent_misses {what : Expected} (h : what ≠ .symbol .closeBrace) :
    MissesNoBrace (expectIdent last what ps) := by
  unfold expectIdent
  split
  · exact failsOnly_ok
  · exact failsOnly_error.2 (not_unclosed_unexpected h)

theorem expectAssignSign_misses : MissesNoBrace (expectAssignSign last ps) := by
  unfold expectAssignSign
  split
  · split
    · exact failsOnly_ok
    · exact failsOnly_error.2 (not_unclosed_unexpected (by simp))
  · exact failsOnly_error.2 (not_unclosed_unexpected (by simp))

theorem parseExpr_misses (ps : List Piece) : MissesNoBrace (parseExpr last ps) := by
  refine parseExpr.induct (fun ps => MissesNoBrace (parseExpr last ps))
    (fun n ps => MissesNoBrace (parseBinary last n ps))
    (fun n left ps => MissesNoBrace (parseOperators last n left ps))
    (fun ps => MissesNoBrace (parseUnary last ps))
    (fun base ps => MissesNoBrace (parseSelectors last base ps))
    (fun ps => MissesNoBrace (parsePrimary last ps))
    ?expr ?binaryZero ?binarySucc ?operatorsOther ?operatorsTake ?operatorsEnd ?unaryNot ?unaryNeg
    ?unarySelection ?selectorsMember ?selectorsIndex ?selectorsEnd ?primaryParens ?primaryAtom
    ?primaryNone ?primaryText ps
  case expr =>
    intro ps ihTest ihYes ihNo
    rw [parseExpr]
    refine ihTest.bind fun r _ => ?_
    obtain ⟨⟨test, mid⟩, hlt⟩ := r
    simp only
    split
    · exact failsOnly_pure
    · rename_i mid₁ hlt₁ _
      refine (ihYes test mid hlt mid₁ hlt₁).bind fun r _ => ?_
      obtain ⟨⟨yes, mid₂⟩, hlt₂⟩ := r
      refine .bind (expectSymbol_misses (by simp)) fun r _ => ?_
      obtain ⟨mid₃, hlt₃⟩ := r
      exact (ihNo test mid hlt mid₁ hlt₁ yes mid₂ hlt₂ mid₃ hlt₃).bind fun _ _ => failsOnly_pure
  case binaryZero =>
    intro ps ih
    rwa [parseBinary]
  case binarySucc =>
    intro ps n ihLeft ihOperators
    rw [parseBinary]
    refine ihLeft.bind fun r _ => ?_
    obtain ⟨⟨left, mid⟩, hlt⟩ := r
    exact (ihOperators left mid hlt).bind fun _ _ => failsOnly_pure
  case operatorsOther =>
    intro n left l s mid hs
    rw [parseOperators, hs]
    exact failsOnly_ok
  case operatorsTake =>
    intro n left l s mid op hop ihRight ihMore
    rw [parseOperators, hop]
    refine ihRight.bind fun r _ => ?_
    obtain ⟨⟨right, mid₁⟩, hlt⟩ := r
    exact (ihMore right mid₁ hlt).bind fun _ _ => failsOnly_pure
  case operatorsEnd =>
    intro n left ps hps
    rw [parseOperators.eq_def]
    split
    · exact absurd rfl (hps _ _ _)
    · exact failsOnly_ok
  case unaryNot =>
    intro l mid ih
    rw [parseUnary]
    exact ih.bind fun _ _ => failsOnly_pure
  case unaryNeg =>
    intro l mid ih
    rw [parseUnary]
    exact ih.bind fun _ _ => failsOnly_pure
  case unarySelection =>
    intro ps hnot hneg ihPrimary ihSelectors
    rw [parseUnary.eq_3 _ _ hnot hneg]
    refine ihPrimary.bind fun r _ => ?_
    obtain ⟨⟨e, mid⟩, hlt⟩ := r
    exact (ihSelectors e mid hlt).bind fun _ _ => failsOnly_pure
  case selectorsMember =>
    intro base l mid ih
    rw [parseSelectors]
    refine .bind (expectIdent_misses (by simp)) fun r _ => ?_
    obtain ⟨⟨name, mid₁⟩, hlt⟩ := r
    exact (ih name mid₁ hlt).bind fun _ _ => failsOnly_pure
  case selectorsIndex =>
    intro base l mid ihPosition ihMore
    rw [parseSelectors]
    refine ihPosition.bind fun r _ => ?_
    obtain ⟨⟨position, mid₁⟩, hlt⟩ := r
    refine .bind (expectSymbol_misses (by simp)) fun r _ => ?_
    obtain ⟨mid₂, hlt₂⟩ := r
    exact (ihMore position mid₁ hlt mid₂ hlt₂).bind fun _ _ => failsOnly_pure
  case selectorsEnd =>
    intro base ps hdot hbracket
    rw [parseSelectors.eq_3 _ _ _ hdot hbracket]
    exact failsOnly_ok
  case primaryParens =>
    intro l mid ih
    rw [parsePrimary]
    refine ih.bind fun r _ => ?_
    obtain ⟨⟨e, mid₁⟩, hlt⟩ := r
    exact .bind (expectSymbol_misses (by simp)) fun _ _ => failsOnly_pure
  case primaryAtom =>
    intro l t mid ht e he
    rw [parsePrimary.eq_2 _ _ _ _ ht, he]
    exact failsOnly_ok
  case primaryNone =>
    intro l t mid ht he
    rw [parsePrimary.eq_2 _ _ _ _ ht, he]
    exact failsOnly_error.2 (not_unclosed_unexpected (by simp))
  case primaryText =>
    intro ps hparen htoken
    rw [parsePrimary.eq_3 _ _ hparen htoken]
    exact failsOnly_error.2 (not_unclosed_unexpected (by simp))

theorem parseDeclaration_misses (ps : List Piece) : MissesNoBrace (parseDeclaration last ps) := by
  refine .bind expectKeyword_misses fun r _ => ?_
  obtain ⟨mid, _⟩ := r
  refine .bind (expectIdent_misses (by simp)) fun r _ => ?_
  obtain ⟨⟨name, mid⟩, _⟩ := r
  simp only
  split
  · exact failsOnly_pure
  · exact (parseExpr_misses _).bind fun _ _ => failsOnly_pure

theorem parseAssignment_misses (ps : List Piece) : MissesNoBrace (parseAssignment last ps) := by
  refine .bind (expectIdent_misses (by simp)) fun r _ => ?_
  obtain ⟨⟨name, mid⟩, _⟩ := r
  refine .bind expectAssignSign_misses fun r _ => ?_
  obtain ⟨⟨sign, mid⟩, _⟩ := r
  cases sign with
  | complete op => exact failsOnly_pure
  | operand op => exact (parseExpr_misses _).bind fun _ _ => failsOnly_pure

theorem parseChange_misses (ps : List Piece) : MissesNoBrace (parseChange last ps) := by
  unfold parseChange
  split
  · exact parseDeclaration_misses _
  · exact parseAssignment_misses _

theorem parseCondition_misses (ps : List Piece) : MissesNoBrace (parseCondition last ps) := by
  refine .bind (expectSymbol_misses (by simp)) fun r _ => ?_
  obtain ⟨mid, _⟩ := r
  refine (parseExpr_misses _).bind fun r _ => ?_
  obtain ⟨⟨e, mid⟩, _⟩ := r
  exact .bind (expectSymbol_misses (by simp)) fun _ _ => failsOnly_pure

theorem parseUnless_misses {α : Type} {stop : Symbol}
    {read : (ps : List Piece) → Except SyntaxError (Parsed α ps)}
    (hread : ∀ ps, MissesNoBrace (read ps)) (ps : List Piece) :
    MissesNoBrace (parseUnless stop read ps) := by
  unfold parseUnless
  split
  · exact failsOnly_ok
  · exact (hread _).bind fun _ _ => failsOnly_pure

theorem parseForHead_misses (ps : List Piece) : MissesNoBrace (parseForHead last ps) := by
  refine .bind (expectSymbol_misses (by simp)) fun r _ => ?_
  obtain ⟨mid, _⟩ := r
  refine (parseUnless_misses parseChange_misses _).bind fun r _ => ?_
  obtain ⟨⟨init, mid⟩, _⟩ := r
  refine .bind (expectSymbol_misses (by simp)) fun r _ => ?_
  obtain ⟨mid, _⟩ := r
  refine (parseUnless_misses parseExpr_misses _).bind fun r _ => ?_
  obtain ⟨⟨test, mid⟩, _⟩ := r
  refine .bind (expectSymbol_misses (by simp)) fun r _ => ?_
  obtain ⟨mid, _⟩ := r
  refine (parseUnless_misses parseAssignment_misses _).bind fun r _ => ?_
  obtain ⟨⟨step, mid⟩, _⟩ := r
  exact .bind (expectSymbol_misses (by simp)) fun _ _ => failsOnly_pure

theorem parseForEachHead_misses (ps : List Piece) : MissesNoBrace (parseForEachHead last ps) := by
  refine .bind (expectSymbol_misses (by simp)) fun r _ => ?_
  obtain ⟨mid, _⟩ := r
  refine .bind (expectIdent_misses (by simp)) fun r _ => ?_
  obtain ⟨⟨name, mid⟩, _⟩ := r
  refine .bind expectKeyword_misses fun r _ => ?_
  obtain ⟨mid, _⟩ := r
  refine (parseExpr_misses _).bind fun r _ => ?_
  obtain ⟨⟨e, mid⟩, _⟩ := r
  exact .bind (expectSymbol_misses (by simp)) fun _ _ => failsOnly_pure

/-! ## Statements that miss a closing brace -/

/-- Where the reader misses a closing brace at the end, `n` more braces of `ps` are opened than closed,
or more than that. -/
def MissesFrom {α : Type} (n : Nat) (ps : List Piece) (x : Except SyntaxError α) : Prop :=
  FailsOnly (fun e => e.Unclosed → closings (tokensIn ps) + n ≤ openings (tokensIn ps)) x

section MissesFrom

variable {α β : Type} {n : Nat} {qs : List Piece} {x : Except SyntaxError α}

theorem FailsOnly.missesFrom (h : MissesNoBrace x) : MissesFrom n ps x :=
  h.mono fun _ he hunclosed => absurd hunclosed he

theorem MissesFrom.weaken (h : MissesFrom 1 ps x) : MissesFrom 0 ps x :=
  h.mono fun _ he hunclosed => Nat.le_of_succ_le (he hunclosed)

/-- What stands before pieces with as many opening as closing braces. -/
theorem MissesFrom.behind (h : MissesFrom n qs x) (hps : EvenBraces ps) : MissesFrom n (ps ++ qs) x := by
  refine h.mono fun _ he hunclosed => ?_
  have := he hunclosed
  simp only [EvenBraces, tokensIn_append, openings_append, closings_append] at *
  omega

theorem MissesFrom.cons {l : Nat} {t : Token} (hopen : t.opens = false) (hclose : t.closes = false)
    (h : MissesFrom n ps x) : MissesFrom n (.token l t :: ps) x :=
  h.behind (.cons hopen hclose .nil)

theorem MissesFrom.opened {l : Nat} (h : MissesFrom 0 ps x) :
    MissesFrom 1 (.token l (.symbol .openBrace) :: ps) x := by
  refine h.mono fun _ he hunclosed => ?_
  have := he hunclosed
  simpa [openings_cons, closings_cons, Token.opens, Token.closes] using this

end MissesFrom

theorem reads_parseBody_statement {rest : List Piece} {is : List Instruction}
    (h : Reads (parseBody last ps) is rest) : ∃ js, Reads (parseStatement last ps) js rest := by
  rw [parseBody] at h
  split at h
  · rename_i hbrace
    obtain ⟨l, rfl⟩ := takeSymbol?_eq_some hbrace
    obtain ⟨body, _, _, hbody, h⟩ := reads_bind.1 h
    cases reads_pure.1 h
    refine ⟨[.scope l is], ?_⟩
    rw [parseStatement]
    exact .bind hbody fun _ => reads_pure.2 rfl
  · exact ⟨is, h⟩

theorem parseStatement_missesFrom (ps : List Piece) : MissesFrom 1 ps (parseStatement last ps) := by
  -- What was read before the failure has a form, and so opens as many braces as it closes: the brace
  -- that is missing was opened in the rest.
  refine parseStatement.induct (fun ps => MissesFrom 1 ps (parseStatement last ps))
    (fun ps => MissesFrom 1 ps (parseBody last ps))
    (fun ps => MissesFrom 0 ps (parseBraced last ps))
    (fun ps => MissesFrom 1 ps (parseArms last ps))
    ?text ?empty ?scope ?declaration ?assignment ?choice ?forLoop ?forEach ?whileLoop ?other
    ?bodyBraced ?bodySingle ?bracedEnd ?bracedClose ?bracedToken ?bracedText ?arms ps
  case text =>
    intro l output rest
    rw [parseStatement]
    exact failsOnly_ok
  case empty =>
    intro l rest
    rw [parseStatement]
    exact failsOnly_ok
  case scope =>
    intro l rest ih
    rw [parseStatement]
    exact FailsOnly.bind ih.opened fun _ _ => failsOnly_pure
  case declaration =>
    intro l rest
    rw [parseStatement]
    refine FailsOnly.missesFrom ((parseDeclaration_misses _).bind fun r _ => ?_)
    obtain ⟨⟨c, mid⟩, _⟩ := r
    exact .bind (expectSymbol_misses (by simp)) fun _ _ => failsOnly_pure
  case assignment =>
    intro l name rest
    rw [parseStatement]
    refine FailsOnly.missesFrom ((parseAssignment_misses _).bind fun r _ => ?_)
    obtain ⟨⟨c, mid⟩, _⟩ := r
    exact .bind (expectSymbol_misses (by simp)) fun _ _ => failsOnly_pure
  case choice =>
    intro l rest ih
    rw [parseStatement]
    exact FailsOnly.bind (ih.cons rfl rfl) fun _ _ => failsOnly_pure
  case forLoop =>
    intro l rest ih
    rw [parseStatement]
    refine FailsOnly.bind (parseForHead_misses _).missesFrom fun r hhead => ?_
    obtain ⟨⟨head, mid⟩, hlt⟩ := r
    obtain ⟨front, rfl, form⟩ := parseForHead_takes last _ _ _ ⟨hlt, hhead⟩
    refine FailsOnly.bind ?_ fun _ _ => failsOnly_pure
    exact ((ih head mid hlt).behind form.pairedBraces.even).cons rfl rfl
  case forEach =>
    intro l rest ih
    rw [parseStatement]
    refine FailsOnly.bind (parseForEachHead_misses _).missesFrom fun r hhead => ?_
    obtain ⟨⟨⟨name, e⟩, mid⟩, hlt⟩ := r
    obtain ⟨front, rfl, form⟩ := parseForEachHead_takes last _ _ _ ⟨hlt, hhead⟩
    refine FailsOnly.bind ?_ fun _ _ => failsOnly_pure
    exact ((ih name e mid hlt).behind form.pairedBraces.even).cons rfl rfl
  case whileLoop =>
    intro l rest ih
    rw [parseStatement]
    refine FailsOnly.bind (parseCondition_misses _).missesFrom fun r htest => ?_
    obtain ⟨⟨test, mid⟩, hlt⟩ := r
    obtain ⟨front, rfl, form⟩ := parseCondition_takes last _ _ _ ⟨hlt, htest⟩
    refine FailsOnly.bind ?_ fun _ _ => failsOnly_pure
    exact ((ih test mid hlt).behind form.pairedBraces.even).cons rfl rfl
  case other =>
    intro ps h₁ h₂ h₃ h₄ h₅ h₆ h₇ h₈ h₉
    rw [parseStatement.eq_10 _ _ h₁ h₂ h₃ h₄ h₅ h₆ h₇ h₈ h₉]
    exact FailsOnly.missesFrom (failsOnly_error.2 (not_unclosed_unexpected (by simp)))
  case bodyBraced =>
    intro ps rest hlt hbrace ih
    rw [parseBody, hbrace]
    obtain ⟨l, rfl⟩ := takeSymbol?_eq_some hbrace
    exact FailsOnly.bind ih.opened fun _ _ => failsOnly_pure
  case bodySingle =>
    intro ps hbrace ih
    rwa [parseBody, hbrace]
  case bracedEnd =>
    rw [parseBraced]
    exact failsOnly_error.2 fun _ => Nat.le_refl 0
  case bracedClose =>
    intro l t rest ht
    rw [parseBraced.eq_def]
    simp only [ht]
    exact failsOnly_ok
  case bracedToken =>
    intro l t rest ht ihFirst ihMore
    rw [parseBraced.eq_3 _ _ _ _ (by rintro rfl; exact ht rfl), if_neg Bool.false_ne_true]
    refine FailsOnly.bind ihFirst.weaken fun r hfirst => ?_
    obtain ⟨⟨first, mid⟩, hlt⟩ := r
    obtain ⟨_, front, hfront, form, _⟩ := parseStatement_takes last _ _ _ ⟨hlt, hfirst⟩
    have hmore := (ihMore first mid hlt).behind form.pairedBraces.even
    rw [← hfront] at hmore
    exact FailsOnly.bind hmore fun _ _ => failsOnly_pure
  case bracedText =>
    intro l output rest ih
    rw [parseBraced]
    exact FailsOnly.bind ih fun _ _ => failsOnly_pure
  case arms =>
    intro ps ihBody ihNext ihOther
    rw [parseArms]
    refine FailsOnly.bind (parseCondition_misses _).missesFrom fun r htest => ?_
    obtain ⟨⟨test, mid⟩, hlt⟩ := r
    obtain ⟨ts, rfl, testForm⟩ := parseCondition_takes last _ _ _ ⟨hlt, htest⟩
    refine MissesFrom.behind ?_ testForm.pairedBraces.even
    refine FailsOnly.bind (ihBody test mid hlt) fun r hbody => ?_
    obtain ⟨⟨body, behind⟩, hlt'⟩ := r
    obtain ⟨js, hstatement⟩ := reads_parseBody_statement ⟨hlt', hbody⟩
    obtain ⟨_, bs, rfl, bodyForm, _⟩ := parseStatement_takes last _ _ _ hstatement
    refine MissesFrom.behind ?_ bodyForm.pairedBraces.even
    simp only
    split
    · exact failsOnly_pure
    · rename_i els hels helse
      obtain ⟨l, rfl⟩ := takeKeyword?_eq_some helse
      refine MissesFrom.cons rfl rfl ?_
      split
      · rename_i more hmore hif
        obtain ⟨l', rfl⟩ := takeKeyword?_eq_some hif
        refine FailsOnly.bind ?_ fun _ _ => failsOnly_pure
        exact (ihNext test _ hlt body _ hlt' _ hels _ hmore).cons rfl rfl
      · exact FailsOnly.bind (ihOther test _ hlt body _ hlt' _ hels) fun _ _ => failsOnly_pure

/-! ## Whole blocks -/

/-- What is left of pieces behind some statements off their front. -/
inductive LeftOver (last : Nat) : List Piece → List Piece → Prop
  | nil {ps : List Piece} : LeftOver last ps ps
  | statement {ps mid rest : List Piece} {is : List Instruction} :
      Reads (parseStatement last ps) is mid → LeftOver last mid rest → LeftOver last ps rest

variable {rest : List Piece}

theorem LeftOver.evenBraces (h : LeftOver last ps rest) : ∃ front, ps = front ++ rest ∧ EvenBraces front := by
  induction h with
  | nil => exact ⟨[], rfl, .nil⟩
  | statement hfirst _ ih =>
      obtain ⟨_, front, rfl, form, _⟩ := parseStatement_takes last _ _ _ hfirst
      obtain ⟨more, rfl, hmore⟩ := ih
      exact ⟨front ++ more, (List.append_assoc ..).symm, form.pairedBraces.even.append hmore⟩

/-- Behind whole statements of balanced pieces stands no closing brace. -/
theorem LeftOver.not_startsWith (h : LeftOver last ps rest) (hps : Balanced (tokensIn ps)) :
    ¬ StartsWith (.symbol .closeBrace) rest := by
  rintro ⟨l, behind, rfl⟩
  obtain ⟨front, rfl, heven⟩ := h.evenBraces
  have hclosed := hps.prefixes (tokensIn front ++ [.symbol .closeBrace]) (by simp)
  have hopenings : openings [.symbol .closeBrace] = 0 := rfl
  have hclosings : closings [.symbol .closeBrace] = 1 := rfl
  rw [EvenBraces] at heven
  rw [openings_append, closings_append, hopenings, hclosings, heven] at hclosed
  exact absurd hclosed (Nat.not_succ_le_self _)

/-- A block is read, or fails, without missing a closing brace when its pieces close as many as they
open. -/
theorem parseBlock_misses (hps : EvenBraces ps) : MissesNoBrace (parseBlock last ps) := by
  induction ps using parseBlock.induct with
  | case1 =>
      rw [parseBlock]
      exact failsOnly_ok
  | case2 p ps ih =>
      rw [parseBlock]
      refine FailsOnly.bind ?_ fun r hfirst => ?_
      · refine (parseStatement_missesFrom (p :: ps)).mono fun e he hunclosed => ?_
        have := he hunclosed
        unfold EvenBraces at hps
        omega
      · obtain ⟨⟨first, mid⟩, hlt⟩ := r
        obtain ⟨_, front, hfront, form, _⟩ := parseStatement_takes last _ _ _ ⟨hlt, hfirst⟩
        have hmid : EvenBraces mid := by
          have heven := form.pairedBraces.even
          rw [hfront] at hps
          simp only [EvenBraces, tokensIn_append, openings_append, closings_append] at *
          omega
        exact FailsOnly.bind (ih first mid hlt hmid) fun _ _ => failsOnly_pure

end MailTemplate
