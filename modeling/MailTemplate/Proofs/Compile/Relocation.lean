import MailTemplate.Proofs.Compile.Lines
import MailTemplate.Proofs.Grammar.Relocation
import MailTemplate.Proofs.Template.Relocation

/-!
# Compiling on other lines

On other lines and in other blocks lines have the same instructions or the same error
(`Line.compileAll_relocate`).
-/

namespace MailTemplate

variable {f : Nat → Nat} {k n n' : Nat}

theorem andThen_relocate (x y : Except SyntaxError (List Instruction)) :
    andThen (relocate f (renumberAll f) x) (relocate f (renumberAll f) y) =
      relocate f (renumberAll f) (andThen x y) := by
  refine relocate_bind fun is _ => ?_
  exact relocate_bind fun js _ => congrArg Except.ok (renumberAll_append f is js).symm

/-! ## Single lines -/

theorem Piece.ofCode_relocate (line : Nat) (cs : List Char) :
    ofCode (f line) cs = relocate f (List.map (renumber f)) (ofCode line cs) := by
  unfold ofCode
  cases hts : tokens cs with
  | ok ts => simp [relocate, renumber]
  | error cause =>
      have hcause : cause.renumber f = cause := (tokens_failsOnly cs cause hts).renumber_eq
      simp only [relocate, SyntaxError.renumber, hcause]

theorem Expr.ofText_relocate (line : Nat) (cs : List Char) :
    ofText (f line) cs = relocate f id (ofText line cs) := by
  unfold ofText
  rw [Piece.ofCode_relocate]
  refine relocate_bind fun ps _ => ?_
  have hexpr : Follows f id (parseExpr line ps) _ := parseExpr_renumber ps
  generalize parseExpr line ps = x at hexpr
  generalize parseExpr (f line) (ps.map (Piece.renumber f)) = y at hexpr
  cases hexpr with
  | error => rfl
  | @ok e rest =>
      cases rest with
      | nil => rfl
      | cons p rest =>
          have hend : unexpected (f line) .endOfExpression ((p :: rest).map (Piece.renumber f)) = _ :=
            unexpected_renumber _
          exact congrArg Except.error hend

theorem Fragment.toInstruction_relocate (number : Nat) (fragment : Fragment) :
    fragment.toInstruction (f number) = relocate f (Instruction.renumber f) (fragment.toInstruction number) := by
  cases fragment with
  | literal | reference => rfl
  | expression text =>
      rw [toInstruction, Expr.ofText_relocate]
      exact relocate_map fun _ => rfl

theorem textInstructions_relocate (number : Nat) (fragments : List Fragment) (isLast : Bool) :
    textInstructions (f number) fragments isLast =
      relocate f (renumberAll f) (textInstructions number fragments isLast) := by
  have houtput : fragments.mapM (Fragment.toInstruction (f number)) =
      relocate f (List.map (Instruction.renumber f)) (fragments.mapM (Fragment.toInstruction number)) :=
    relocate_mapM (g := id) (List.map_id _).symm fun fragment _ => fragment.toInstruction_relocate number
  rw [textInstructions, textInstructions, houtput]
  refine relocate_bind fun output _ => ?_
  cases isLast with
  | true => exact congrArg Except.ok (renumberAll_eq_map f output).symm
  | false =>
      simp only [Bool.false_eq_true, if_false]
      refine congrArg Except.ok ?_
      rw [renumberAll_append, renumberAll_eq_map]
      rfl

namespace Line

/-- A text line that no newline ends, as the last of a source with `n` lines. -/
def isLast (n : Nat) : Line → Bool
  | text number _ _ => number == n
  | code .. => false

theorem isLast_relocate {l : Line} (h : (f l.number == n') = (l.number == n)) :
    (l.relocate f k).isLast n' = l.isLast n := by
  cases l with
  | text => exact h
  | code => rfl

theorem block_relocate (l : Line) : (l.relocate f k).block = l.block.map (k + ·) := by
  cases l <;> rfl

theorem pieces_relocate {l : Line} (hlast : (l.relocate f k).isLast n' = l.isLast n) :
    (l.relocate f k).pieces n' = MailTemplate.relocate f (List.map (Piece.renumber f)) (l.pieces n) := by
  cases l with
  | text number fragments block =>
      change (f number == n') = (number == n) at hlast
      rw [relocate, pieces, pieces, hlast, textInstructions_relocate]
      exact relocate_bind fun output _ => rfl
  | code number cs block => exact Piece.ofCode_relocate number cs.toList

theorem lastNumber_relocate {ms : List Line} (hne : ms ≠ []) :
    lastNumber (ms.map (relocate f k)) = f (lastNumber ms) := by
  obtain ⟨front, l, rfl⟩ := List.eq_nil_or_concat ms |>.resolve_left hne
  cases l <;> simp [lastNumber, relocate, number]

theorem compileGroup_relocate {ms : List Line} (hne : ms ≠ [])
    (hlast : ∀ l ∈ ms, (l.relocate f k).isLast n' = l.isLast n) :
    compileGroup n' (ms.map (relocate f k)) = MailTemplate.relocate f (renumberAll f) (compileGroup n ms) := by
  have hpieces : (ms.map (relocate f k)).mapM (pieces n') =
      MailTemplate.relocate f (List.map (List.map (Piece.renumber f))) (ms.mapM (pieces n)) :=
    relocate_mapM rfl fun l hl => pieces_relocate (hlast l hl)
  rw [compileGroup, compileGroup, hpieces, lastNumber_relocate hne]
  refine relocate_bind fun pss _ => ?_
  rw [← List.map_flatten]
  exact parseBlock_renumber pss.flatten

/-! ## Lines one after the other -/

/-- On other lines there are the same instructions, or the same error. -/
theorem compileAll_relocate {ls : List Line} (hlast : ∀ l ∈ ls, (l.relocate f k).isLast n' = l.isLast n) :
    compileAll n' (ls.map (relocate f k)) = MailTemplate.relocate f (renumberAll f) (compileAll n ls) := by
  induction ls using induction_on_blocks with
  | nil => rfl
  | text number fragments ls ih =>
      obtain ⟨hfirst, hmore⟩ := List.forall_mem_cons.1 hlast
      change (f number == n') = (number == n) at hfirst
      rw [List.map_cons, relocate, Option.map_none, compileAll_text, compileAll_text, hfirst,
        textInstructions_relocate, ih hmore, andThen_relocate]
  | block j ms ls hne hms hhead ih =>
      obtain ⟨hfirst, hmore⟩ := List.forall_mem_append.1 hlast
      have hms' : ∀ m ∈ ms.map (relocate f k), m.block = some (k + j) :=
        List.forall_mem_map.2 fun m hm => by rw [block_relocate, hms m hm, Option.map_some]
      have hhead' : ∀ l ∈ (ls.map (relocate f k)).head?, l.block ≠ some (k + j) := by
        intro l' hl'
        rw [List.head?_map] at hl'
        obtain ⟨l, hl, rfl⟩ := Option.map_eq_some_iff.1 hl'
        rw [block_relocate]
        exact fun h => hhead l hl (Option.map_injective (fun _ _ => Nat.add_left_cancel) h)
      rw [List.map_append, compileAll_group hms' hhead', compileAll_group hms hhead,
        compileGroup_relocate hne hfirst, ih hmore, andThen_relocate]

end Line

end MailTemplate
