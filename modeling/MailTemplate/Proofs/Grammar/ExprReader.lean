import MailTemplate.Expr.Parser
import MailTemplate.Proofs.Grammar.Expr
import MailTemplate.Proofs.Grammar.Reads

/-!
# Reading expressions is the grammar of expressions

What `parseExpr` takes off the front of some pieces has the form of what it gives
(`parseExpr_takes`), and a form is read to its end when what stands behind it does not go on with it
(`ExprForm.completes`).
-/

namespace MailTemplate

variable (last : Nat)

theorem BinaryOp.atLevel?_eq_some {n : Nat} {s : Symbol} {op : BinaryOp} :
    atLevel? n s = some op ↔ s = op.symbol ∧ op.level = n := by
  simp [atLevel?, Option.filter_eq_some_iff, ofSymbol?_eq_some_iff]

theorem BinaryOp.level_pos (op : BinaryOp) : 0 < op.level := by cases op <;> decide

/-! ## What is read has the form -/

/-- A form of rank `t` and value `base`, with what `read` takes off the front of `ps` behind it, is
of rank `t` again. -/
def ExtendsForm (t : Rank) (base : Expr) (ps : List Piece)
    (read : Except SyntaxError { r : Expr × List Piece // r.2.length ≤ ps.length }) : Prop :=
  ∀ qs, ExprForm t qs base → ∀ e rest, Reads read e rest →
    ∃ front, qs ++ ps = front ++ rest ∧ ExprForm t front e

theorem Token.atom?_form {l : Nat} {t : Token} {e : Expr} (h : t.atom? = some e) :
    ExprForm .primary [.token l t] e := by
  unfold Token.atom? at h
  split at h
  · cases h; exact .number
  · cases h; exact .string
  · cases h; exact .trueLit
  · cases h; exact .falseLit
  · cases h; exact .nullLit
  · cases h; exact .ident
  · cases h

/-- The pieces that `parseExpr` takes are the expression it gives. -/
theorem parseExpr_takes (ps : List Piece) : Takes (ExprForm .expr) ps (parseExpr last ps) := by
  refine parseExpr.induct (fun ps => Takes (ExprForm .expr) ps (parseExpr last ps))
    (fun n ps => Takes (ExprForm (.binary n)) ps (parseBinary last n ps))
    (fun n left ps => ExtendsForm (.binary n) left ps (parseOperators last n left ps))
    (fun ps => Takes (ExprForm .unary) ps (parseUnary last ps))
    (fun base ps => ExtendsForm .selection base ps (parseSelectors last base ps))
    (fun ps => Takes (ExprForm .primary) ps (parsePrimary last ps))
    ?expr ?binaryZero ?binarySucc ?operatorsOther ?operatorsTake ?operatorsEnd ?unaryNot ?unaryNeg
    ?unarySelection ?selectorsMember ?selectorsIndex ?selectorsEnd ?primaryParens ?primaryAtom
    ?primaryNone ?primaryText ps
  case expr =>
    intro ps ihTest ihYes ihNo e rest h
    rw [parseExpr] at h
    obtain ⟨test, mid, hlt, htest, h⟩ := reads_bind.1 h
    obtain ⟨qs, rfl, hqs⟩ := ihTest _ _ htest
    simp only at h
    split at h
    · cases reads_pure.1 h
      exact ⟨qs, rfl, .loosest hqs⟩
    · rename_i mid₁ hlt₁ hq
      obtain ⟨l, rfl⟩ := takeSymbol?_eq_some hq
      obtain ⟨yes, mid₂, hlt₂, hyes, h⟩ := reads_bind.1 h
      obtain ⟨l', mid₃, hlt₃, rfl, h⟩ := reads_expectSymbol_bind.1 h
      obtain ⟨no, mid₄, hlt₄, hno, h⟩ := reads_bind.1 h
      obtain ⟨ys, rfl, yesForm⟩ := ihYes test _ hlt _ hlt₁ _ _ hyes
      obtain ⟨ns, rfl, noForm⟩ := ihNo test _ hlt _ hlt₁ yes _ hlt₂ _ hlt₃ _ _ hno
      cases reads_pure.1 h
      exact ⟨_, by simp, .cond l l' hqs yesForm noForm⟩
  case binaryZero =>
    intro ps ih e rest h
    rw [parseBinary] at h
    obtain ⟨qs, hps, hqs⟩ := ih _ _ h
    exact ⟨qs, hps, .operand hqs⟩
  case binarySucc =>
    intro ps n ihLeft ihOperators e rest h
    rw [parseBinary] at h
    obtain ⟨left, mid, hlt, hleft, h⟩ := reads_bind.1 h
    obtain ⟨_, _, _, hops, h⟩ := reads_bind.1 h
    cases reads_pure.1 h
    obtain ⟨qs, rfl, hqs⟩ := ihLeft _ _ hleft
    exact ihOperators left mid hlt qs (.tighter hqs) _ _ hops
  case operatorsOther =>
    intro n left l s mid hs qs hqs e rest h
    rw [parseOperators, hs] at h
    cases reads_ok.1 h
    exact ⟨qs, rfl, hqs⟩
  case operatorsTake =>
    intro n left l s mid op hop ihRight ihMore qs hqs e rest h
    obtain ⟨rfl, hlevel⟩ := BinaryOp.atLevel?_eq_some.1 hop
    obtain ⟨m, rfl⟩ : ∃ m, n = m + 1 := ⟨n - 1, by have := op.level_pos; omega⟩
    rw [parseOperators, hop] at h
    obtain ⟨right, mid₁, hlt, hright, h⟩ := reads_bind.1 h
    obtain ⟨_, _, _, hmore, h⟩ := reads_bind.1 h
    cases reads_pure.1 h
    obtain ⟨rs, rfl, hrs⟩ := ihRight _ _ hright
    obtain ⟨front, hfront, form⟩ := ihMore right _ hlt _ (.binary l op hlevel hqs hrs) _ _ hmore
    exact ⟨front, by simpa using hfront, form⟩
  case operatorsEnd =>
    intro n left ps hps qs hqs e rest h
    rw [parseOperators.eq_def] at h
    split at h
    · exact absurd rfl (hps _ _ _)
    · cases reads_ok.1 h
      exact ⟨qs, rfl, hqs⟩
  case unaryNot =>
    intro l mid ih e rest h
    rw [parseUnary] at h
    obtain ⟨_, _, _, he, h⟩ := reads_bind.1 h
    cases reads_pure.1 h
    obtain ⟨qs, rfl, hqs⟩ := ih _ _ he
    exact ⟨_, rfl, .unary l .not hqs⟩
  case unaryNeg =>
    intro l mid ih e rest h
    rw [parseUnary] at h
    obtain ⟨_, _, _, he, h⟩ := reads_bind.1 h
    cases reads_pure.1 h
    obtain ⟨qs, rfl, hqs⟩ := ih _ _ he
    exact ⟨_, rfl, .unary l .neg hqs⟩
  case unarySelection =>
    intro ps hnot hneg ihPrimary ihSelectors e rest h
    rw [parseUnary.eq_def] at h
    split at h
    · exact absurd rfl (hnot _ _)
    · exact absurd rfl (hneg _ _)
    · obtain ⟨base, mid, hlt, hbase, h⟩ := reads_bind.1 h
      obtain ⟨_, _, _, hsel, h⟩ := reads_bind.1 h
      cases reads_pure.1 h
      obtain ⟨qs, rfl, hqs⟩ := ihPrimary _ _ hbase
      obtain ⟨front, hfront, form⟩ := ihSelectors base mid hlt qs (.primary hqs) _ _ hsel
      exact ⟨front, hfront, .selection form⟩
  case selectorsMember =>
    intro base l mid ih qs hqs e rest h
    rw [parseSelectors] at h
    obtain ⟨name, mid, hlt, hname, h⟩ := reads_bind.1 h
    obtain ⟨l', rfl⟩ := reads_expectIdent.1 hname
    obtain ⟨_, _, _, hsel, h⟩ := reads_bind.1 h
    cases reads_pure.1 h
    obtain ⟨front, hfront, form⟩ := ih name _ hlt _ (.member l l' hqs) _ _ hsel
    exact ⟨front, by simpa using hfront, form⟩
  case selectorsIndex =>
    intro base l mid ihPosition ihMore qs hqs e rest h
    rw [parseSelectors] at h
    obtain ⟨position, mid, hlt, hposition, h⟩ := reads_bind.1 h
    obtain ⟨l', mid₁, hlt₁, rfl, h⟩ := reads_expectSymbol_bind.1 h
    obtain ⟨_, _, _, hsel, h⟩ := reads_bind.1 h
    cases reads_pure.1 h
    obtain ⟨is, rfl, his⟩ := ihPosition _ _ hposition
    obtain ⟨front, hfront, form⟩ := ihMore position _ hlt _ hlt₁ _ (.index l l' hqs his) _ _ hsel
    exact ⟨front, by simpa using hfront, form⟩
  case selectorsEnd =>
    intro base ps hdot hbracket qs hqs e rest h
    rw [parseSelectors.eq_def] at h
    split at h
    · exact absurd rfl (hdot _ _)
    · exact absurd rfl (hbracket _ _)
    · cases reads_ok.1 h
      exact ⟨qs, rfl, hqs⟩
  case primaryParens =>
    intro l mid ih e rest h
    rw [parsePrimary] at h
    obtain ⟨_, _, _, he, h⟩ := reads_bind.1 h
    obtain ⟨l', _, _, rfl, h⟩ := reads_expectSymbol_bind.1 h
    cases reads_pure.1 h
    obtain ⟨qs, rfl, hqs⟩ := ih _ _ he
    exact ⟨_, by simp, .parens l l' hqs⟩
  case primaryAtom =>
    intro l t mid ht a hatom e rest h
    rw [parsePrimary.eq_2 _ _ _ _ ht, hatom] at h
    cases reads_ok.1 h
    exact ⟨[.token l t], rfl, Token.atom?_form hatom⟩
  case primaryNone =>
    intro l t mid ht hatom e rest h
    rw [parsePrimary.eq_2 _ _ _ _ ht, hatom] at h
    exact absurd h not_reads_error
  case primaryText =>
    intro ps hparen htoken e rest h
    rw [parsePrimary.eq_3 _ _ hparen htoken] at h
    exact absurd h not_reads_error

/-! ## What has the form is read -/

/-- The level at which a symbol goes on with the expression before it: members and indexes at zero,
operators at their own, and a conditional above all of them. -/
def Symbol.joinsAt? : Symbol → Option Nat
  | .dot | .openBracket => some 0
  | .question => some (BinaryOp.maxLevel + 1)
  | s => (BinaryOp.ofSymbol? s).map BinaryOp.level

/-- No piece at the front of `rest` goes on with an expression of level `n` or tighter. -/
def StopsAt (n : Nat) (rest : List Piece) : Prop :=
  ∀ l s mid, rest = .token l (.symbol s) :: mid → ∀ k, s.joinsAt? = some k → n < k

theorem stopsAt_nil {n : Nat} : StopsAt n [] := by
  rintro l s mid h
  cases h

theorem stopsAt_symbol {n l : Nat} {s : Symbol} {mid : List Piece} (h : s.joinsAt? = none) :
    StopsAt n (.token l (.symbol s) :: mid) := by
  rintro _ _ _ ⟨⟩ k hk
  rw [h] at hk
  cases hk

theorem StopsAt.mono {m n : Nat} {rest : List Piece} (h : StopsAt n rest) (hle : m ≤ n) : StopsAt m rest :=
  fun l s mid hrest k hk => Nat.lt_of_le_of_lt hle (h l s mid hrest k hk)

theorem BinaryOp.joinsAt?_symbol (op : BinaryOp) : op.symbol.joinsAt? = some op.level := by
  cases op <;> rfl

theorem BinaryOp.level_le (op : BinaryOp) : op.level ≤ maxLevel := by cases op <;> decide

theorem parseSelectors_stop {base : Expr} {rest : List Piece} (h : StopsAt 0 rest) :
    Reads (parseSelectors last base rest) base rest := by
  rw [parseSelectors.eq_def]
  split
  · exact absurd (h _ _ _ rfl 0 rfl) (Nat.lt_irrefl 0)
  · exact absurd (h _ _ _ rfl 0 rfl) (Nat.lt_irrefl 0)
  · exact reads_ok.2 rfl

theorem parseOperators_stop {n : Nat} {left : Expr} {rest : List Piece} (h : StopsAt n rest) :
    Reads (parseOperators last n left rest) left rest := by
  rw [parseOperators.eq_def]
  split
  · split
    · exact reads_ok.2 rfl
    · rename_i op hop
      obtain ⟨rfl, hlevel⟩ := BinaryOp.atLevel?_eq_some.1 hop
      exact absurd (h _ _ _ rfl _ op.joinsAt?_symbol) (by omega)
  · exact reads_ok.2 rfl

/-- What a form of a rank has to make of its reader, with anything behind it. A reader of members or
of operators goes on behind the form, as far as it can. -/
def Completes : Rank → List Piece → Expr → Prop
  | .primary, ps, e => ∀ rest, Reads (parsePrimary last (ps ++ rest)) e rest
  | .selection, ps, e => ∀ rest e' rest', Reads (parseSelectors last e rest) e' rest' →
      Reads (parseUnary last (ps ++ rest)) e' rest'
  | .unary, ps, e => ∀ rest, StopsAt 0 rest → Reads (parseUnary last (ps ++ rest)) e rest
  | .binary 0, ps, e => ∀ rest, StopsAt 0 rest → Reads (parseBinary last 0 (ps ++ rest)) e rest
  | .binary (n + 1), ps, e => ∀ rest e' rest', StopsAt n rest →
      Reads (parseOperators last (n + 1) e rest) e' rest' →
      Reads (parseBinary last (n + 1) (ps ++ rest)) e' rest'
  | .expr, ps, e => ∀ rest, StopsAt (BinaryOp.maxLevel + 1) rest →
      Reads (parseExpr last (ps ++ rest)) e rest

theorem Completes.binary_stop {n : Nat} {ps rest : List Piece} {e : Expr}
    (h : Completes last (.binary n) ps e) (hstop : StopsAt n rest) :
    Reads (parseBinary last n (ps ++ rest)) e rest := by
  cases n with
  | zero => exact h rest hstop
  | succ n => exact h rest e rest (hstop.mono (Nat.le_succ n)) (parseOperators_stop last hstop)

/-- A primary starts with a token that is no prefix operator. -/
theorem ExprForm.primary_head {ps : List Piece} {e : Expr} (h : ExprForm .primary ps e) :
    ∃ l t mid, ps = .token l t :: mid ∧ ∀ op : UnaryOp, t ≠ .symbol op.symbol := by
  cases h <;> exact ⟨_, _, _, rfl, by intro op; cases op <;> simp [UnaryOp.symbol]⟩

theorem ExprForm.completes {t : Rank} {ps : List Piece} {e : Expr} (h : ExprForm t ps e) :
    Completes last t ps e := by
  induction h with
  | number | string | trueLit | falseLit | nullLit | ident =>
      intro rest
      exact ⟨Nat.lt_succ_self _, by simp [parsePrimary, Token.atom?]⟩
  | parens l l' _ ih =>
      intro rest
      rw [List.cons_append, List.cons_append, List.append_assoc, parsePrimary]
      refine .bind (ih _ (stopsAt_symbol rfl)) fun _ => ?_
      exact .expectSymbol fun _ => reads_pure.2 rfl
  | primary h ih =>
      intro rest e' rest' hsel
      obtain ⟨l, t, mid, rfl, hop⟩ := h.primary_head
      rw [List.cons_append, parseUnary.eq_3]
      · refine .bind (ih rest) fun _ => ?_
        exact .bind hsel fun _ => reads_pure.2 rfl
      · rintro _ _ ⟨⟩
        exact hop .not rfl
      · rintro _ _ ⟨⟩
        exact hop .neg rfl
  | member l l' _ ih =>
      intro rest e' rest' hsel
      rw [List.append_assoc]
      refine ih _ _ _ ?_
      rw [List.cons_append, List.cons_append, parseSelectors]
      refine .bind (reads_expectIdent.2 ⟨l', rfl⟩) fun _ => ?_
      exact .bind hsel fun _ => reads_pure.2 rfl
  | index l l' _ _ ih ihIndex =>
      intro rest e' rest' hsel
      rw [List.append_assoc, List.append_assoc]
      refine ih _ _ _ ?_
      rw [List.cons_append, parseSelectors]
      refine .bind (ihIndex _ (stopsAt_symbol rfl)) fun _ => ?_
      refine .expectSymbol fun _ => ?_
      exact .bind hsel fun _ => reads_pure.2 rfl
  | selection _ ih =>
      intro rest hstop
      exact ih rest _ rest (parseSelectors_stop last hstop)
  | unary l op _ ih =>
      intro rest hstop
      cases op with
      | not =>
          rw [List.cons_append, UnaryOp.symbol, parseUnary]
          exact .bind (ih rest hstop) fun _ => reads_pure.2 rfl
      | neg =>
          rw [List.cons_append, UnaryOp.symbol, parseUnary]
          exact .bind (ih rest hstop) fun _ => reads_pure.2 rfl
  | operand _ ih =>
      intro rest hstop
      rw [parseBinary]
      exact ih rest hstop
  | tighter _ ih =>
      intro rest e' rest' hstop hops
      rw [parseBinary]
      refine .bind (ih.binary_stop last hstop) fun _ => ?_
      exact .bind hops fun _ => reads_pure.2 rfl
  | binary l op hlevel _ _ ihLeft ihRight =>
      intro rest e' rest' hstop hops
      rw [List.append_assoc]
      refine ihLeft _ e' rest' ?_ ?_
      · rintro _ _ _ ⟨⟩ k hk
        rw [op.joinsAt?_symbol, hlevel] at hk
        cases hk
        exact Nat.lt_succ_self _
      · rw [List.cons_append, parseOperators, BinaryOp.atLevel?_eq_some.2 ⟨rfl, hlevel⟩]
        refine .bind (ihRight.binary_stop last hstop) fun _ => ?_
        exact .bind hops fun _ => reads_pure.2 rfl
  | loosest _ ih =>
      intro rest hstop
      rw [parseExpr]
      refine .bind (ih.binary_stop last (hstop.mono (Nat.le_succ _))) fun _ => ?_
      have hq : takeSymbol? .question rest = none := by
        refine takeSymbol?_eq_none.2 ?_
        rintro ⟨l, mid, rfl⟩
        exact absurd (hstop _ _ _ rfl _ rfl) (Nat.lt_irrefl _)
      simp only [hq]
      exact reads_pure.2 rfl
  | cond l l' _ _ _ ihTest ihYes ihNo =>
      intro rest hstop
      rw [List.append_assoc, List.append_assoc, parseExpr]
      refine .bind (ihTest.binary_stop last ?_) fun _ => ?_
      · rintro _ _ _ ⟨⟩ k ⟨⟩
        exact Nat.lt_succ_self _
      · simp only [List.cons_append, takeSymbol?_cons]
        refine .bind (ihYes _ (stopsAt_symbol rfl)) fun _ => ?_
        refine .expectSymbol fun _ => ?_
        exact .bind (ihNo rest hstop) fun _ => reads_pure.2 rfl

end MailTemplate
