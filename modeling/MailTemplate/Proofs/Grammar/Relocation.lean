import MailTemplate.Proofs.Grammar.Reads
import MailTemplate.Proofs.Grammar.Renumbering
import MailTemplate.Proofs.Grammar.StatementCompletion
import MailTemplate.Proofs.Relocation

/-!
# Readers of pieces on other lines

With other line numbers the readers of expressions and statements do the same: they take the same pieces,
or fail for the same cause at the piece they fail at (`parseBlock_renumber`).
-/

namespace MailTemplate

variable {f : Nat → Nat} {α β γ δ : Type} {last : Nat} {ps : List Piece}

/-- The second reader does on the lines changed by `f` what the first does: it gives `g a` where the first
gives `a`, and leaves the same pieces, or it fails as the first does. -/
inductive Follows (f : Nat → Nat) (g : α → β) {P : α × List Piece → Prop} {Q : β × List Piece → Prop} :
    Except SyntaxError { r // P r } → Except SyntaxError { r // Q r } → Prop
  | ok {a rest hP hQ} : Follows f g (.ok ⟨(a, rest), hP⟩) (.ok ⟨(g a, rest.map (Piece.renumber f)), hQ⟩)
  | error {e} : Follows f g (.error e) (.error (e.renumber f))

section Follows

variable {g : α → β} {h : γ → δ} {P : α × List Piece → Prop} {Q : β × List Piece → Prop}
  {R : γ × List Piece → Prop} {S : δ × List Piece → Prop} {x : Except SyntaxError { r // P r }}
  {y : Except SyntaxError { r // Q r }} {k : { r // P r } → Except SyntaxError { r // R r }}
  {k' : { r // Q r } → Except SyntaxError { r // S r }}

theorem Follows.bind (hx : Follows f g x y)
    (hk : ∀ a rest hP hQ, Follows f h (k ⟨(a, rest), hP⟩) (k' ⟨(g a, rest.map (Piece.renumber f)), hQ⟩)) :
    Follows f h (x >>= k) (y >>= k') := by
  cases hx with
  | ok => exact hk _ _ _ _
  | error => exact .error

theorem Follows.pure {a : α} {rest rest' : List Piece} {hP : P (a, rest)} {b : β} {hQ : Q (b, rest')}
    (hb : b = g a) (hrest : rest' = rest.map (Piece.renumber f)) :
    Follows f g (pure (⟨(a, rest), hP⟩ : { r // P r })) (Pure.pure (⟨(b, rest'), hQ⟩ : { r // Q r })) := by
  subst hb hrest
  exact .ok

end Follows

/-! ## Single pieces -/

theorem unexpected_renumber (what : Expected) :
    unexpected (f last) what (ps.map (Piece.renumber f)) = (unexpected last what ps).renumber f := by
  match ps with
  | [] | .token .. :: _ | .text .. :: _ => rfl

theorem frontLine_renumber : frontLine (f last) (ps.map (Piece.renumber f)) = f (frontLine last ps) := by
  match ps with
  | [] | .token .. :: _ | .text .. :: _ => rfl

section Take

variable {s : Symbol} {kw : Keyword} {rest : List Piece} {hlt : rest.length < ps.length}

theorem takeSymbol?_renumber (h : takeSymbol? s ps = some ⟨rest, hlt⟩) :
    ∃ hlt', takeSymbol? s (ps.map (Piece.renumber f)) = some ⟨rest.map (Piece.renumber f), hlt'⟩ := by
  obtain ⟨l, rfl⟩ := takeSymbol?_eq_some h
  exact ⟨_, takeSymbol?_cons⟩

theorem takeSymbol?_renumber_none (h : takeSymbol? s ps = none) :
    takeSymbol? s (ps.map (Piece.renumber f)) = none := by
  rw [takeSymbol?_eq_none] at h ⊢
  exact fun hstart => h (hstart.of_renumber f)

theorem takeKeyword?_renumber (h : takeKeyword? kw ps = some ⟨rest, hlt⟩) :
    ∃ hlt', takeKeyword? kw (ps.map (Piece.renumber f)) = some ⟨rest.map (Piece.renumber f), hlt'⟩ := by
  obtain ⟨l, rfl⟩ := takeKeyword?_eq_some h
  exact ⟨_, takeKeyword?_cons⟩

theorem takeKeyword?_renumber_none (h : takeKeyword? kw ps = none) :
    takeKeyword? kw (ps.map (Piece.renumber f)) = none := by
  rw [takeKeyword?_eq_none] at h ⊢
  exact fun hstart => h (hstart.of_renumber f)

end Take

section Bind

variable {h : γ → δ} {R : γ × List Piece → Prop} {S : δ × List Piece → Prop}
  {k : Fewer ps → Except SyntaxError { r // R r }}
  {k' : Fewer (ps.map (Piece.renumber f)) → Except SyntaxError { r // S r }}

theorem Follows.expectSymbol {s : Symbol}
    (hk : ∀ rest hlt hlt', Follows f h (k ⟨rest, hlt⟩) (k' ⟨rest.map (Piece.renumber f), hlt'⟩)) :
    Follows f h (expectSymbol last s ps >>= k)
      (MailTemplate.expectSymbol (f last) s (ps.map (Piece.renumber f)) >>= k') := by
  unfold MailTemplate.expectSymbol
  cases htake : takeSymbol? s ps with
  | none =>
      simp only [takeSymbol?_renumber_none htake, unexpected_renumber]
      exact .error
  | some r =>
      obtain ⟨hlt, htake'⟩ := takeSymbol?_renumber (f := f) htake
      simp only [htake']
      exact hk _ _ _

theorem Follows.expectKeyword {kw : Keyword}
    (hk : ∀ rest hlt hlt', Follows f h (k ⟨rest, hlt⟩) (k' ⟨rest.map (Piece.renumber f), hlt'⟩)) :
    Follows f h (expectKeyword last kw ps >>= k)
      (MailTemplate.expectKeyword (f last) kw (ps.map (Piece.renumber f)) >>= k') := by
  unfold MailTemplate.expectKeyword
  cases htake : takeKeyword? kw ps with
  | none =>
      simp only [takeKeyword?_renumber_none htake, unexpected_renumber]
      exact .error
  | some r =>
      obtain ⟨hlt, htake'⟩ := takeKeyword?_renumber (f := f) htake
      simp only [htake']
      exact hk _ _ _

end Bind

theorem expectIdent_renumber (what : Expected) (ps : List Piece) :
    Follows f id (expectIdent last what ps) (expectIdent (f last) what (ps.map (Piece.renumber f))) := by
  match ps with
  | [] | .text .. :: _ => exact .error
  | .token l t :: _ => cases t <;> first | exact .ok | exact .error

theorem expectAssignSign_renumber (ps : List Piece) :
    Follows f id (expectAssignSign last ps) (expectAssignSign (f last) (ps.map (Piece.renumber f))) := by
  match ps with
  | [] | .text .. :: _ => exact .error
  | .token l (.keyword k) :: _ | .token l (.ident k) :: _ | .token l (.number k) :: _
  | .token l (.string k) :: _ => exact .error
  | .token l (.symbol s) :: rest =>
      change Follows f id (expectAssignSign last (.token l (.symbol s) :: rest))
        (expectAssignSign (f last) (.token (f l) (.symbol s) :: rest.map (Piece.renumber f)))
      simp only [expectAssignSign]
      cases AssignSign.ofSymbol? s with
      | some sign => exact .ok
      | none => exact .error

/-- Pieces that do not start with a token do not start with it on other lines. -/
theorem not_token_renumber {t : Token} (h : ∀ l rest, ps = .token l t :: rest → False) (l : Nat)
    (rest : List Piece) : ps.map (Piece.renumber f) = .token l t :: rest → False := by
  intro hps
  obtain ⟨m, mid, rfl⟩ := StartsWith.of_renumber f ⟨l, rest, hps⟩
  exact h m mid rfl

theorem not_text_renumber (h : ∀ l output rest, ps = .text l output :: rest → False) (l : Nat)
    (output : List Instruction) (rest : List Piece) :
    ps.map (Piece.renumber f) = .text l output :: rest → False := by
  intro hps
  match ps, hps with
  | .text m is :: mid, _ => exact h m is mid rfl

/-! ## Expressions -/

theorem parseExpr_renumber (ps : List Piece) :
    Follows f id (parseExpr last ps) (parseExpr (f last) (ps.map (Piece.renumber f))) := by
  refine parseExpr.induct
    (fun ps => Follows f id (parseExpr last ps) (parseExpr (f last) (ps.map (Piece.renumber f))))
    (fun n ps => Follows f id (parseBinary last n ps) (parseBinary (f last) n (ps.map (Piece.renumber f))))
    (fun n left ps => Follows f id (parseOperators last n left ps)
      (parseOperators (f last) n left (ps.map (Piece.renumber f))))
    (fun ps => Follows f id (parseUnary last ps) (parseUnary (f last) (ps.map (Piece.renumber f))))
    (fun base ps => Follows f id (parseSelectors last base ps)
      (parseSelectors (f last) base (ps.map (Piece.renumber f))))
    (fun ps => Follows f id (parsePrimary last ps) (parsePrimary (f last) (ps.map (Piece.renumber f))))
    ?expr ?binaryZero ?binarySucc ?operatorsOther ?operatorsTake ?operatorsEnd ?unaryNot ?unaryNeg
    ?unarySelection ?selectorsMember ?selectorsIndex ?selectorsEnd ?primaryParens ?primaryAtom
    ?primaryNone ?primaryText ps
  case expr =>
    intro ps ihTest ihYes ihNo
    rw [parseExpr, parseExpr]
    refine ihTest.bind fun test mid hlt hlt' => ?_
    cases htake : takeSymbol? .question mid with
    | none =>
        simp only [htake, takeSymbol?_renumber_none htake]
        exact .ok
    | some r =>
        obtain ⟨mid₁, hlt₁⟩ := r
        obtain ⟨_, htake'⟩ := takeSymbol?_renumber (f := f) htake
        simp only [htake, htake']
        refine (ihYes test mid hlt mid₁ hlt₁).bind fun yes mid₂ hlt₂ _ => ?_
        refine .expectSymbol fun mid₃ hlt₃ _ => ?_
        refine (ihNo test mid hlt mid₁ hlt₁ yes mid₂ hlt₂ mid₃ hlt₃).bind fun no rest _ _ => ?_
        exact .ok
  case binaryZero =>
    intro ps ih
    rwa [parseBinary, parseBinary]
  case binarySucc =>
    intro ps n ihLeft ihOperators
    rw [parseBinary, parseBinary]
    refine ihLeft.bind fun left mid hlt _ => ?_
    exact (ihOperators left mid hlt).bind fun _ _ _ _ => .ok
  case operatorsOther =>
    intro n left l s mid hs
    rw [List.map_cons, Piece.renumber_token, parseOperators, parseOperators, hs]
    exact .ok
  case operatorsTake =>
    intro n left l s mid op hop ihRight ihMore
    rw [List.map_cons, Piece.renumber_token, parseOperators, parseOperators, hop]
    refine ihRight.bind fun right mid₁ hlt _ => ?_
    exact (ihMore right mid₁ hlt).bind fun _ _ _ _ => .ok
  case operatorsEnd =>
    intro n left ps hps
    have hps' (l : Nat) (s : Symbol) := not_token_renumber (f := f) (fun l rest => hps l s rest) l
    rw [parseOperators.eq_2 _ _ _ _ hps, parseOperators.eq_2 _ _ _ _ hps']
    exact .ok
  case unaryNot =>
    intro l mid ih
    rw [List.map_cons, Piece.renumber_token, parseUnary, parseUnary]
    exact ih.bind fun _ _ _ _ => .ok
  case unaryNeg =>
    intro l mid ih
    rw [List.map_cons, Piece.renumber_token, parseUnary, parseUnary]
    exact ih.bind fun _ _ _ _ => .ok
  case unarySelection =>
    intro ps hnot hneg ihPrimary ihSelectors
    rw [parseUnary.eq_3 _ _ hnot hneg, parseUnary.eq_3 _ _ (not_token_renumber hnot) (not_token_renumber hneg)]
    refine ihPrimary.bind fun e mid hlt _ => ?_
    exact (ihSelectors e mid hlt).bind fun _ _ _ _ => .ok
  case selectorsMember =>
    intro base l mid ih
    rw [List.map_cons, Piece.renumber_token, parseSelectors, parseSelectors]
    refine (expectIdent_renumber _ _).bind fun name mid₁ hlt _ => ?_
    exact (ih name mid₁ hlt).bind fun _ _ _ _ => .ok
  case selectorsIndex =>
    intro base l mid ihPosition ihMore
    rw [List.map_cons, Piece.renumber_token, parseSelectors, parseSelectors]
    refine ihPosition.bind fun position mid₁ hlt _ => ?_
    refine .expectSymbol fun mid₂ hlt₂ _ => ?_
    exact (ihMore position mid₁ hlt mid₂ hlt₂).bind fun _ _ _ _ => .ok
  case selectorsEnd =>
    intro base ps hdot hbracket
    rw [parseSelectors.eq_3 _ _ _ hdot hbracket,
      parseSelectors.eq_3 _ _ _ (not_token_renumber hdot) (not_token_renumber hbracket)]
    exact .ok
  case primaryParens =>
    intro l mid ih
    rw [List.map_cons, Piece.renumber_token, parsePrimary, parsePrimary]
    refine ih.bind fun e mid₁ hlt _ => ?_
    exact .expectSymbol fun _ _ _ => .ok
  case primaryAtom =>
    intro l t mid ht e he
    rw [List.map_cons, Piece.renumber_token, parsePrimary.eq_2 _ _ _ _ ht, parsePrimary.eq_2 _ _ _ _ ht, he]
    exact .ok
  case primaryNone =>
    intro l t mid ht he
    rw [List.map_cons, Piece.renumber_token, parsePrimary.eq_2 _ _ _ _ ht, parsePrimary.eq_2 _ _ _ _ ht, he]
    exact .error
  case primaryText =>
    intro ps hparen htoken
    have htoken' (l : Nat) (t : Token) := not_token_renumber (f := f) (fun l rest => htoken l t rest) l
    rw [parsePrimary.eq_3 _ _ hparen htoken, parsePrimary.eq_3 _ _ (not_token_renumber hparen) htoken',
      unexpected_renumber]
    exact .error

/-! ## Parts of statements -/

theorem parseDeclaration_renumber (ps : List Piece) :
    Follows f (Change.renumber f) (parseDeclaration last ps)
      (parseDeclaration (f last) (ps.map (Piece.renumber f))) := by
  simp only [parseDeclaration, frontLine_renumber]
  refine .expectKeyword fun mid _ _ => ?_
  refine (expectIdent_renumber _ _).bind fun name mid _ _ => ?_
  cases htake : takeSymbol? .assign mid with
  | none =>
      simp only [takeSymbol?_renumber_none htake]
      exact .ok
  | some r =>
      obtain ⟨_, htake'⟩ := takeSymbol?_renumber (f := f) htake
      simp only [htake']
      exact (parseExpr_renumber _).bind fun _ _ _ _ => .ok

theorem parseAssignment_renumber (ps : List Piece) :
    Follows f (Change.renumber f) (parseAssignment last ps)
      (parseAssignment (f last) (ps.map (Piece.renumber f))) := by
  simp only [parseAssignment, frontLine_renumber]
  refine (expectIdent_renumber _ _).bind fun name mid _ _ => ?_
  refine (expectAssignSign_renumber _).bind fun sign mid _ _ => ?_
  cases sign with
  | complete op => exact .ok
  | operand op => exact (parseExpr_renumber _).bind fun _ _ _ _ => .ok

theorem parseChange_renumber (ps : List Piece) :
    Follows f (Change.renumber f) (parseChange last ps) (parseChange (f last) (ps.map (Piece.renumber f))) := by
  unfold parseChange
  cases htake : takeKeyword? .var ps with
  | none =>
      simp only [takeKeyword?_renumber_none htake]
      exact parseAssignment_renumber ps
  | some r =>
      obtain ⟨_, htake'⟩ := takeKeyword?_renumber (f := f) htake
      simp only [htake']
      exact parseDeclaration_renumber ps

theorem parseCondition_renumber (ps : List Piece) :
    Follows f id (parseCondition last ps) (parseCondition (f last) (ps.map (Piece.renumber f))) := by
  refine .expectSymbol fun mid _ _ => ?_
  refine (parseExpr_renumber _).bind fun e mid _ _ => ?_
  exact .expectSymbol fun _ _ _ => .ok

theorem parseUnless_renumber {stop : Symbol} {g : α → β}
    {read : (ps : List Piece) → Except SyntaxError (Parsed α ps)}
    {read' : (ps : List Piece) → Except SyntaxError (Parsed β ps)}
    (hread : ∀ ps, Follows f g (read ps) (read' (ps.map (Piece.renumber f)))) (ps : List Piece) :
    Follows f (Option.map g) (parseUnless stop read ps)
      (parseUnless stop read' (ps.map (Piece.renumber f))) := by
  unfold parseUnless
  cases htake : takeSymbol? stop ps with
  | none =>
      simp only [takeSymbol?_renumber_none htake]
      exact (hread ps).bind fun _ _ _ _ => .ok
  | some r =>
      obtain ⟨_, htake'⟩ := takeSymbol?_renumber (f := f) htake
      simp only [htake']
      exact .ok

theorem parseForHead_renumber (ps : List Piece) :
    Follows f (ForHead.renumber f) (parseForHead last ps)
      (parseForHead (f last) (ps.map (Piece.renumber f))) := by
  refine .expectSymbol fun mid _ _ => ?_
  refine (parseUnless_renumber parseChange_renumber _).bind fun init mid _ _ => ?_
  refine .expectSymbol fun mid _ _ => ?_
  refine (parseUnless_renumber parseExpr_renumber _).bind fun test mid _ _ => ?_
  refine .expectSymbol fun mid _ _ => ?_
  refine (parseUnless_renumber parseAssignment_renumber _).bind fun step mid _ _ => ?_
  refine .expectSymbol fun mid _ _ => ?_
  rw [Option.map_id]
  exact .ok

theorem skipVar_renumber (ps : List Piece) :
    (skipVar (ps.map (Piece.renumber f))).1 = (skipVar ps).1.map (Piece.renumber f) := by
  unfold skipVar
  cases htake : takeKeyword? .var ps with
  | none => simp only [takeKeyword?_renumber_none htake]
  | some r =>
      obtain ⟨_, htake'⟩ := takeKeyword?_renumber (f := f) htake
      simp only [htake']

theorem parseForEachHead_renumber (ps : List Piece) :
    Follows f id (parseForEachHead last ps) (parseForEachHead (f last) (ps.map (Piece.renumber f))) := by
  refine .expectSymbol fun mid _ _ => ?_
  simp only
  have hskip := skipVar_renumber (f := f) mid
  generalize skipVar mid = skipped at hskip
  generalize skipVar (mid.map (Piece.renumber f)) = skipped' at hskip
  obtain ⟨mid, _⟩ := skipped
  obtain ⟨mid', _⟩ := skipped'
  subst hskip
  refine (expectIdent_renumber _ _).bind fun name mid _ _ => ?_
  refine .expectKeyword fun mid _ _ => ?_
  refine (parseExpr_renumber _).bind fun e mid _ _ => ?_
  exact .expectSymbol fun _ _ _ => .ok

/-! ## Statements -/

theorem parseStatement_renumber (ps : List Piece) :
    Follows f (renumberAll f) (parseStatement last ps)
      (parseStatement (f last) (ps.map (Piece.renumber f))) := by
  refine parseStatement.induct
    (fun ps => Follows f (renumberAll f) (parseStatement last ps)
      (parseStatement (f last) (ps.map (Piece.renumber f))))
    (fun ps => Follows f (renumberAll f) (parseBody last ps) (parseBody (f last) (ps.map (Piece.renumber f))))
    (fun ps => Follows f (renumberAll f) (parseBraced last ps)
      (parseBraced (f last) (ps.map (Piece.renumber f))))
    (fun ps => Follows f (Arms.renumber f) (parseArms last ps) (parseArms (f last) (ps.map (Piece.renumber f))))
    ?text ?empty ?scope ?declaration ?assignment ?choice ?forLoop ?forEach ?whileLoop ?other
    ?bodyBraced ?bodySingle ?bracedEnd ?bracedClose ?bracedToken ?bracedText ?arms ps
  case text =>
    intro l output rest
    rw [List.map_cons, Piece.renumber, parseStatement, parseStatement]
    exact .ok
  case empty =>
    intro l rest
    rw [List.map_cons, Piece.renumber, parseStatement, parseStatement]
    exact .ok
  case scope =>
    intro l rest ih
    rw [List.map_cons, Piece.renumber, parseStatement, parseStatement]
    exact ih.bind fun _ _ _ _ => .ok
  case declaration =>
    intro l rest
    rw [List.map_cons, Piece.renumber, parseStatement, parseStatement]
    refine (parseDeclaration_renumber _).bind fun c mid _ _ => ?_
    exact .expectSymbol fun _ _ _ => .ok
  case assignment =>
    intro l name rest
    rw [List.map_cons, Piece.renumber, parseStatement, parseStatement]
    refine (parseAssignment_renumber _).bind fun c mid _ _ => ?_
    exact .expectSymbol fun _ _ _ => .ok
  case choice =>
    intro l rest ih
    rw [List.map_cons, Piece.renumber, parseStatement, parseStatement]
    exact ih.bind fun _ _ _ _ => .ok
  case forLoop =>
    intro l rest ih
    rw [List.map_cons, Piece.renumber, parseStatement, parseStatement]
    refine (parseForHead_renumber _).bind fun head mid hlt _ => ?_
    exact (ih head mid hlt).bind fun _ _ _ _ => .ok
  case forEach =>
    intro l rest ih
    rw [List.map_cons, Piece.renumber, parseStatement, parseStatement]
    refine (parseForEachHead_renumber _).bind fun head mid hlt _ => ?_
    exact (ih head.1 head.2 mid hlt).bind fun _ _ _ _ => .ok
  case whileLoop =>
    intro l rest ih
    rw [List.map_cons, Piece.renumber, parseStatement, parseStatement]
    refine (parseCondition_renumber _).bind fun test mid hlt _ => ?_
    exact (ih test mid hlt).bind fun _ _ _ _ => .ok
  case other =>
    intro ps h₁ h₂ h₃ h₄ h₅ h₆ h₇ h₈ h₉
    have h₅' (l : Nat) (name : String) := not_token_renumber (f := f) (fun l rest => h₅ l name rest) l
    rw [parseStatement.eq_10 _ _ h₁ h₂ h₃ h₄ h₅ h₆ h₇ h₈ h₉,
      parseStatement.eq_10 _ _ (not_text_renumber h₁) (not_token_renumber h₂) (not_token_renumber h₃)
        (not_token_renumber h₄) h₅' (not_token_renumber h₆) (not_token_renumber h₇) (not_token_renumber h₈)
        (not_token_renumber h₉),
      unexpected_renumber]
    exact .error
  case bodyBraced =>
    intro ps rest hlt hbrace ih
    obtain ⟨_, hbrace'⟩ := takeSymbol?_renumber (f := f) hbrace
    rw [parseBody, parseBody, hbrace, hbrace']
    exact ih.bind fun _ _ _ _ => .ok
  case bodySingle =>
    intro ps hbrace ih
    rwa [parseBody, parseBody, hbrace, takeSymbol?_renumber_none hbrace]
  case bracedEnd =>
    rw [List.map_nil, parseBraced, parseBraced]
    exact .error
  case bracedClose =>
    intro l t rest ht
    rw [List.map_cons, Piece.renumber_token, parseBraced.eq_def, parseBraced.eq_def]
    simp only [ht]
    exact .ok
  case bracedToken =>
    intro l t rest ht ihFirst ihMore
    have hnot : t = .symbol .closeBrace → False := by
      rintro rfl
      exact ht rfl
    rw [List.map_cons, Piece.renumber_token, parseBraced.eq_3 _ _ _ _ hnot, parseBraced.eq_3 _ _ _ _ hnot,
      if_neg Bool.false_ne_true, if_neg Bool.false_ne_true]
    refine ihFirst.bind fun first mid hlt _ => ?_
    exact (ihMore first mid hlt).bind fun more _ _ _ => .pure (renumberAll_append f first more).symm rfl
  case bracedText =>
    intro l output rest ih
    rw [List.map_cons, Piece.renumber, parseBraced, parseBraced]
    exact ih.bind fun more _ _ _ => .pure (renumberAll_append f output more).symm rfl
  case arms =>
    intro ps ihBody ihNext ihOther
    rw [parseArms, parseArms]
    refine (parseCondition_renumber _).bind fun test mid hlt _ => ?_
    refine (ihBody test mid hlt).bind fun body behind hlt' _ => ?_
    cases helse : takeKeyword? .orElse behind with
    | none =>
        simp only [helse, takeKeyword?_renumber_none helse]
        exact .ok
    | some els =>
        obtain ⟨_, helse'⟩ := takeKeyword?_renumber (f := f) helse
        simp only [helse, helse']
        cases hif : takeKeyword? .ifThen els.1 with
        | none =>
            simp only [takeKeyword?_renumber_none hif]
            exact (ihOther test mid hlt body behind hlt' els.1 els.2).bind fun _ _ _ _ => .ok
        | some more =>
            obtain ⟨_, hif'⟩ := takeKeyword?_renumber (f := f) hif
            simp only [hif']
            exact (ihNext test mid hlt body behind hlt' els.1 els.2 more.1 more.2).bind fun _ _ _ _ => .ok

/-- On other lines a block has the same statements, or the same error. -/
theorem parseBlock_renumber (ps : List Piece) :
    parseBlock (f last) (ps.map (Piece.renumber f)) = relocate f (renumberAll f) (parseBlock last ps) := by
  induction ps using parseBlock.induct with
  | case1 =>
      rw [List.map_nil, parseBlock, parseBlock]
      rfl
  | case2 p ps ih =>
      have hfirst : Follows f (renumberAll f) (parseStatement last (p :: ps)) _ := parseStatement_renumber _
      rw [List.map_cons] at hfirst ⊢
      rw [parseBlock, parseBlock]
      generalize parseStatement last (p :: ps) = x at hfirst
      generalize parseStatement (f last) (p.renumber f :: ps.map (Piece.renumber f)) = y at hfirst
      cases hfirst with
      | error => rfl
      | @ok first rest hlt =>
          change parseBlock (f last) (rest.map (Piece.renumber f)) >>= _ = relocate f _ (parseBlock last rest >>= _)
          rw [ih first rest hlt]
          exact relocate_bind fun more _ => congrArg Except.ok (renumberAll_append f first more).symm

/-- Pieces are statements if and only if they are on other lines, and mean the same there. -/
theorem StatementsForm.renumber_iff {is : List Instruction} :
    StatementsForm (ps.map (Piece.renumber f)) is ↔ ∃ js, StatementsForm ps js ∧ renumberAll f js = is := by
  constructor
  · intro h
    have hread := h.parses (f 0)
    rw [parseBlock_renumber] at hread
    obtain ⟨js, hjs, rfl⟩ := relocate_eq_ok_iff.1 hread
    exact ⟨js, parseBlock_takes 0 hjs, rfl⟩
  · rintro ⟨js, form, rfl⟩
    have hread : parseBlock (f 0) (ps.map (Piece.renumber f)) = _ := parseBlock_renumber ps
    rw [form.parses 0] at hread
    exact parseBlock_takes (f 0) hread

end MailTemplate
