import MailTemplate.Proofs.Grammar.Statement
import Mathlib.Data.List.Chain

/-!
# Where text stands among statements

In statements a text line follows the end of a statement: another text line, or a token behind which
a statement may begin (`StatementsForm.fits`).
-/

namespace MailTemplate

/-- Whether a statement may begin behind the piece. -/
def Piece.endsStatement : Piece → Bool
  | token _ t => t.endsStatement
  | text .. => true

/-- The piece `q` may stand behind `p`, as far as text is concerned. -/
def MayFollow (p q : Piece) : Prop := q.isToken = true ∨ p.endsStatement = true

/-- All texts are in place, and the last piece may have a text behind it. -/
structure Fits (ps : List Piece) : Prop where
  chain : ps.IsChain MayFollow
  last : ∀ p ∈ ps.getLast?, p.endsStatement = true

theorem fits_nil : Fits [] := ⟨.nil, nofun⟩

theorem fits_singleton {p : Piece} (hp : p.endsStatement = true) : Fits [p] :=
  ⟨.singleton p, by rintro _ ⟨⟩; exact hp⟩

theorem Fits.append {ps qs : List Piece} (hps : Fits ps) (hqs : Fits qs) : Fits (ps ++ qs) := by
  constructor
  · rw [List.isChain_append]
    exact ⟨hps.chain, hqs.chain, fun p hp _ _ => .inr (hps.last p hp)⟩
  · intro p hp
    rw [List.getLast?_append] at hp
    cases hlast : qs.getLast? with
    | none =>
        rw [hlast] at hp
        exact hps.last p hp
    | some q =>
        rw [hlast] at hp
        cases hp
        exact hqs.last _ hlast

theorem isChain_of_isToken {ps : List Piece} (h : ps.all Piece.isToken = true) :
    ps.IsChain MayFollow := by
  induction ps with
  | nil => exact .nil
  | cons p ps ih =>
      rw [List.all_cons, Bool.and_eq_true] at h
      refine List.isChain_cons.2 ⟨?_, ih h.2⟩
      intro q hq
      exact .inl (List.all_eq_true.1 h.2 q (List.mem_of_mem_head? hq))

theorem fits_of_isToken {ps : List Piece} {p : Piece} (h : (ps ++ [p]).all Piece.isToken = true)
    (hp : p.endsStatement = true) : Fits (ps ++ [p]) := by
  refine ⟨isChain_of_isToken h, ?_⟩
  rw [List.getLast?_concat]
  rintro _ ⟨⟩
  exact hp

/-! ## Heads of statements -/

/-- Pieces that end with a closing parenthesis. -/
def EndsInParen (ps : List Piece) : Prop := ∃ qs l, ps = qs ++ [.token l (.symbol .closeParen)]

theorem ConditionForm.endsInParen {ps : List Piece} {e : Expr} (h : ConditionForm ps e) :
    EndsInParen ps := by
  cases h
  exact ⟨_, _, rfl⟩

theorem ForHeadForm.endsInParen {ps : List Piece} {head : ForHead} (h : ForHeadForm ps head) :
    EndsInParen ps := by
  cases h
  exact ⟨_, _, rfl⟩

theorem ForEachHeadForm.endsInParen {ps : List Piece} {head : String × Expr}
    (h : ForEachHeadForm ps head) : EndsInParen ps := by
  cases h
  exact ⟨_, _, rfl⟩

/-- A word and the parentheses behind it may have a text behind them. -/
theorem fits_head {ps : List Piece} (l : Nat) (t : Token) (h : ps.all Piece.isToken = true)
    (hend : EndsInParen ps) : Fits (.token l t :: ps) := by
  obtain ⟨qs, l', rfl⟩ := hend
  rw [← List.cons_append]
  exact fits_of_isToken (by simpa [Piece.isToken] using h) rfl

/-! ## Statements -/

mutual

theorem StatementForm.fits {d : Bool} {ps : List Piece} {is : List Instruction}
    (h : StatementForm d ps is) : Fits ps := by
  match h with
  | .text l output => exact fits_singleton rfl
  | .empty l => exact fits_singleton rfl
  | .scope l l' form => exact ((fits_singleton rfl).append form.fits).append (fits_singleton rfl)
  | .change l form => exact fits_of_isToken (by simp [Piece.isToken, form.isToken]) rfl
  | .choice l form => exact form.fits l
  | .forLoop l headForm form => exact (fits_head l _ headForm.isToken headForm.endsInParen).append form.fits
  | .forEach l headForm form => exact (fits_head l _ headForm.isToken headForm.endsInParen).append form.fits
  | .whileLoop l testForm form =>
      exact (fits_head l _ testForm.isToken testForm.endsInParen).append form.fits

theorem StatementsForm.fits {ps : List Piece} {is : List Instruction} (h : StatementsForm ps is) :
    Fits ps := by
  match h with
  | .nil => exact fits_nil
  | .cons first more => exact first.fits.append more.fits

theorem BodyForm.fits {d : Bool} {ps : List Piece} {is : List Instruction} (h : BodyForm d ps is) :
    Fits ps := by
  match h with
  | .braced l l' form => exact ((fits_singleton rfl).append form.fits).append (fits_singleton rfl)
  | .single form _ => exact form.fits

/-- The arms of a choice, behind an `if`. -/
theorem ArmsForm.fits {d : Bool} {ps : List Piece} {arms : Arms} (h : ArmsForm d ps arms) (l : Nat) :
    Fits (.token l (.keyword .ifThen) :: ps) := by
  match h with
  | .last testForm form => exact (fits_head l _ testForm.isToken testForm.endsInParen).append form.fits
  | .otherwise l' testForm form otherForm _ =>
      have htest := fits_head l (.keyword .ifThen) testForm.isToken testForm.endsInParen
      have helse : Fits [.token l' (.keyword .orElse)] := fits_singleton rfl
      exact (htest.append form.fits).append (helse.append otherForm.fits)
  | .next l' l'' testForm form nextForm =>
      have htest := fits_head l (.keyword .ifThen) testForm.isToken testForm.endsInParen
      have helse : Fits [.token l' (.keyword .orElse)] := fits_singleton rfl
      exact (htest.append form.fits).append (helse.append (nextForm.fits l''))

end

/-- No text line follows a token that leaves a statement open. -/
theorem StatementsForm.endsStatement_of_text {ps qs : List Piece} {l l' : Nat} {t : Token}
    {output is : List Instruction}
    (h : StatementsForm (ps ++ .token l t :: .text l' output :: qs) is) : t.endsStatement = true := by
  obtain ⟨_, hfollow, _⟩ := List.isChain_append_cons_cons.1 h.fits.chain
  rcases hfollow with htoken | hend
  · exact absurd htoken Bool.false_ne_true
  · exact hend

end MailTemplate
