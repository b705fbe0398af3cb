import MailTemplate.Program
import MailTemplate.Proofs.Grammar.StatementCompletion
import MailTemplate.Proofs.Results
import Mathlib

/-!
# The lines of a program

Lines are compiled one after the other: a text line outside of blocks by itself, and the lines of a block
together as statements (`Line.compileAll_text`, `Line.compileAll_group`). So a template is compiled if and
only if its lines have a form (`compile_eq_ok_iff`), and lines of different blocks are compiled apart
(`Line.compileAll_append`).
-/

namespace MailTemplate

variable {n : Nat}

/-- Instructions of one part, and behind them those of another. -/
def andThen (x y : Except SyntaxError (List Instruction)) : Except SyntaxError (List Instruction) := do
  let is ← x
  let js ← y
  return is ++ js

section AndThen

variable (x y z : Except SyntaxError (List Instruction))

theorem nil_andThen : andThen (.ok []) y = y := by
  cases y <;> rfl

theorem andThen_eq_ok_iff {x y : Except SyntaxError (List Instruction)} {is : List Instruction} :
    andThen x y = .ok is ↔ ∃ js ks, x = .ok js ∧ y = .ok ks ∧ is = js ++ ks := by
  rw [andThen, bind_eq_ok_iff]
  constructor
  · rintro ⟨js, hx, h⟩
    obtain ⟨ks, hy, h⟩ := bind_eq_ok_iff.1 h
    cases h
    exact ⟨js, ks, hx, hy, rfl⟩
  · rintro ⟨js, ks, hx, hy, rfl⟩
    exact ⟨js, hx, bind_eq_ok_iff.2 ⟨ks, hy, rfl⟩⟩

theorem andThen_assoc : andThen (andThen x y) z = andThen x (andThen y z) := by
  cases x with
  | error e => rfl
  | ok is =>
      cases y with
      | error e => rfl
      | ok js =>
          cases z with
          | error e => rfl
          | ok ks => exact congrArg Except.ok (List.append_assoc ..)

end AndThen

/-! ## Lines of one block -/

theorem block_eq_of_isChain {m : Line} {ms : List Line}
    (h : (m :: ms).IsChain fun a b => (a.block == b.block) = true) : ∀ l ∈ ms, l.block = m.block := by
  induction ms generalizing m with
  | nil => nofun
  | cons n ms ih =>
      obtain ⟨hn, hms⟩ := List.isChain_cons_cons.1 h
      rw [beq_iff_eq] at hn
      exact List.forall_mem_cons.2 ⟨hn.symm, fun l hl => (ih hms l hl).trans hn.symm⟩

theorem isChain_of_block {b : Option Nat} {ms : List Line} (hms : ∀ m ∈ ms, m.block = b) :
    ms.IsChain fun a b => (a.block == b.block) = true := by
  refine List.Pairwise.isChain (List.pairwise_of_forall_mem_list ?_)
  intro l hl m hm
  rw [hms l hl, hms m hm, beq_self_eq_true]

namespace Line

theorem mem_takeWhile_block (b : Option Nat) (ls : List Line) :
    ∀ m ∈ ls.takeWhile (·.block == b), m.block = b :=
  fun _ hm => by simpa using List.mem_takeWhile_imp hm

theorem head_dropWhile_block (b : Option Nat) (ls : List Line) :
    ∀ l ∈ (ls.dropWhile (·.block == b)).head?, l.block ≠ b := by
  intro l hl
  have := List.head?_dropWhile_not (·.block == b) ls
  rw [hl] at this
  exact beq_eq_false_iff_ne.1 this

/-- Lines come one by one outside of blocks, and all together in a block. -/
theorem induction_on_blocks {P : List Line → Prop} (nil : P [])
    (text : ∀ number fragments ls, P ls → P (.text number fragments none :: ls))
    (block : ∀ j ms ls, ms ≠ [] → (∀ m ∈ ms, m.block = some j) → (∀ l ∈ ls.head?, l.block ≠ some j) →
      P ls → P (ms ++ ls)) (ls : List Line) : P ls := by
  match ls with
  | [] => exact nil
  | l :: ls =>
      cases hl : l.block with
      | none =>
          cases l with
          | code => cases hl
          | text number fragments =>
              cases hl
              exact text number fragments ls (induction_on_blocks nil text block ls)
      | some j =>
          have hms : ∀ m ∈ l :: ls.takeWhile (·.block == some j), m.block = some j :=
            List.forall_mem_cons.2 ⟨hl, mem_takeWhile_block (some j) ls⟩
          have h := block j _ _ (List.cons_ne_nil _ _) hms (head_dropWhile_block (some j) ls)
            (induction_on_blocks nil text block _)
          rwa [List.cons_append, List.takeWhile_append_dropWhile] at h
termination_by ls.length
decreasing_by
  · simp
  · exact Nat.lt_succ_of_le (List.dropWhile_sublist _).length_le

end Line

/-! ## Pieces -/

/-- What the pieces of lines are in a template of `lineCount` lines. -/
abbrev PiecesOf (lineCount : Nat) : List Line → List (List Piece) → Prop :=
  List.Forall₂ fun l ps => l.pieces lineCount = .ok ps

theorem pieces_text {number : Nat} {fragments : List Fragment} {b : Option Nat} {ps : List Piece} :
    (Line.text number fragments b).pieces n = .ok ps ↔
      ∃ output, textInstructions number fragments (number == n) = .ok output ∧
        ps = [.text number output] := by
  rw [Line.pieces, bind_eq_ok_iff]
  simp [pure, Except.pure, eq_comm]

theorem parseBlock_cons_text {last l : Nat} {output : List Instruction} {ps : List Piece} :
    parseBlock last (.text l output :: ps) = (parseBlock last ps).map (output ++ ·) := by
  rw [parseBlock, parseStatement]
  rfl

/-- It does not matter on which line text lines outside of blocks end. -/
theorem parseBlock_texts {last last' : Nat} {ms : List Line} {pss : List (List Piece)}
    (hms : ∀ m ∈ ms, m.block = none) (hps : PiecesOf n ms pss) :
    parseBlock last pss.flatten = parseBlock last' pss.flatten := by
  induction hps with
  | nil => rw [List.flatten_nil, parseBlock, parseBlock]
  | @cons m ps ms pss hm _ ih =>
      obtain ⟨hfirst, hmore⟩ := List.forall_mem_cons.1 hms
      cases m with
      | code => exact absurd hfirst (Option.some_ne_none _)
      | text number fragments block =>
          obtain ⟨output, _, rfl⟩ := pieces_text.1 hm
          rw [List.flatten_cons, List.singleton_append, parseBlock_cons_text, parseBlock_cons_text, ih hmore]

/-! ## Lines one after the other -/

namespace Line

/-- The instructions of lines in a template of `n` lines. -/
def compileAll (n : Nat) (ls : List Line) : Except SyntaxError (List Instruction) := do
  let is ← (ls.splitBy fun a b => a.block == b.block).mapM (compileGroup n)
  return is.flatten

theorem compile_eq (t : Template) :
    t.compile = (compileAll t.lineCount t.lines).map fun is => ⟨is, t.ending⟩ := by
  rw [Template.compile, compileAll, Template.groups]
  cases (t.lines.splitBy fun a b => a.block == b.block).mapM (compileGroup t.lineCount) <;> rfl

theorem compileGroup_nil : compileGroup n [] = .ok [] := by
  change parseBlock (lastNumber []) [] = .ok []
  rw [parseBlock]

/-- Neighbours of one block, or of none, in front of lines of another. -/
theorem compileAll_group {b : Option Nat} {ms ls : List Line} (hms : ∀ m ∈ ms, m.block = b)
    (hhead : ∀ l ∈ ls.head?, l.block ≠ b) :
    compileAll n (ms ++ ls) = andThen (compileGroup n ms) (compileAll n ls) := by
  by_cases hne : ms = []
  · subst hne
    rw [compileGroup_nil, List.nil_append, nil_andThen]
  · have hcut : ∀ l ∈ ms.getLast?, ∀ m ∈ ls.head?, (l.block == m.block) = false := by
      intro l hl m hm
      rw [hms l (List.mem_of_getLast? hl)]
      exact beq_eq_false_iff_ne.2 (hhead m hm).symm
    rw [compileAll, List.splitBy_append hcut, List.splitBy_of_isChain hne (isChain_of_block hms),
      List.singleton_append, List.mapM_cons, compileAll]
    cases compileGroup n ms with
    | error e => rfl
    | ok is =>
        cases (ls.splitBy fun a b => a.block == b.block).mapM (compileGroup n) <;> rfl

theorem compileGroup_cons_text {number : Nat} {fragments : List Fragment} {ms : List Line}
    (hms : ∀ m ∈ ms, m.block = none) :
    compileGroup n (.text number fragments none :: ms) =
      andThen (textInstructions number fragments (number == n)) (compileGroup n ms) := by
  rw [compileGroup, compileGroup, List.mapM_cons, pieces]
  cases textInstructions number fragments (number == n) with
  | error e => rfl
  | ok output =>
      cases hpss : ms.mapM (pieces n) with
      | error e => rfl
      | ok pss =>
          change parseBlock _ (.text number output :: pss.flatten) = (parseBlock _ pss.flatten >>= _)
          rw [parseBlock_cons_text, parseBlock_texts hms (mapM_eq_ok_iff.1 hpss)]
          rfl

/-- A text line outside of blocks is compiled by itself. -/
theorem compileAll_text {number : Nat} {fragments : List Fragment} {ls : List Line} :
    compileAll n (.text number fragments none :: ls) =
      andThen (textInstructions number fragments (number == n)) (compileAll n ls) := by
  -- the text lines behind it are read together with it
  have hms : ∀ m ∈ ls.takeWhile (·.block == none), m.block = none := mem_takeWhile_block none ls
  have hhead : ∀ l ∈ (ls.dropWhile (·.block == none)).head?, l.block ≠ none := head_dropWhile_block none ls
  have hmore := compileAll_group (n := n) hms hhead
  have hall := compileAll_group (n := n) (List.forall_mem_cons.2 ⟨rfl, hms⟩ : ∀ m ∈
    Line.text number fragments none :: ls.takeWhile (·.block == none), m.block = none) hhead
  rw [List.takeWhile_append_dropWhile] at hmore
  rw [List.cons_append, List.takeWhile_append_dropWhile] at hall
  rw [hall, hmore, compileGroup_cons_text hms, andThen_assoc]

/-- Lines of different blocks are compiled apart. -/
theorem compileAll_append {xs ys : List Line}
    (hblocks : ∀ x ∈ xs, ∀ j ∈ x.block, ∀ y ∈ ys, y.block ≠ some j) :
    compileAll n (xs ++ ys) = andThen (compileAll n xs) (compileAll n ys) := by
  induction xs using induction_on_blocks with
  | nil => exact (nil_andThen _).symm
  | text number fragments ls ih =>
      rw [List.cons_append, compileAll_text, compileAll_text, ih (List.forall_mem_cons.1 hblocks).2,
        andThen_assoc]
  | block j ms ls hne hms hhead ih =>
      obtain ⟨hfirst, hmore⟩ := List.forall_mem_append.1 hblocks
      have hhead' : ∀ l ∈ (ls ++ ys).head?, l.block ≠ some j := by
        obtain ⟨m, hm⟩ := List.exists_mem_of_ne_nil ms hne
        cases ls with
        | nil => exact fun y hy => hfirst m hm j (hms m hm) y (List.mem_of_mem_head? hy)
        | cons l ls => exact hhead
      rw [List.append_assoc, compileAll_group hms hhead', compileAll_group hms hhead, ih hmore, andThen_assoc]

end Line

/-! ## Forms of lines -/

/-- `LinesForm n ls is`: the lines `ls` of a template of `n` lines mean the instructions `is`. -/
inductive LinesForm (lineCount : Nat) : List Line → List Instruction → Prop
  | nil : LinesForm lineCount [] []
  | text {number fragments output ls is} :
      textInstructions number fragments (number == lineCount) = .ok output →
      LinesForm lineCount ls is →
      LinesForm lineCount (.text number fragments none :: ls) (output ++ is)
  | block {k ms pss ls is js} : (∀ m ∈ ms, m.block = some k) → PiecesOf lineCount ms pss →
      StatementsForm pss.flatten is → (∀ l ∈ ls.head?, l.block ≠ some k) → LinesForm lineCount ls js →
      LinesForm lineCount (ms ++ ls) (is ++ js)

theorem compileGroup_eq_ok_iff {ls : List Line} {is : List Instruction} :
    Line.compileGroup n ls = .ok is ↔
      ∃ pss, PiecesOf n ls pss ∧ parseBlock (Line.lastNumber ls) pss.flatten = .ok is := by
  rw [Line.compileGroup, bind_eq_ok_iff]
  simp only [mapM_eq_ok_iff]

theorem compileAll_eq_ok_iff {ls : List Line} {is : List Instruction} :
    Line.compileAll n ls = .ok is ↔ LinesForm n ls is := by
  constructor
  · intro h
    induction ls using Line.induction_on_blocks generalizing is with
    | nil =>
        cases h
        exact .nil
    | text number fragments ls ih =>
        rw [Line.compileAll_text] at h
        obtain ⟨output, js, houtput, hjs, rfl⟩ := andThen_eq_ok_iff.1 h
        exact .text houtput (ih hjs)
    | block j ms ls _ hms hhead ih =>
        rw [Line.compileAll_group hms hhead] at h
        obtain ⟨is, js, his, hjs, rfl⟩ := andThen_eq_ok_iff.1 h
        obtain ⟨pss, hps, his⟩ := compileGroup_eq_ok_iff.1 his
        exact .block hms hps (parseBlock_takes _ his) hhead (ih hjs)
  · intro h
    induction h with
    | nil => rfl
    | text houtput _ ih =>
        rw [Line.compileAll_text]
        exact andThen_eq_ok_iff.2 ⟨_, _, houtput, ih, rfl⟩
    | block hms hps form hhead _ ih =>
        have hgroup := compileGroup_eq_ok_iff.2 ⟨_, hps, form.parses _⟩
        rw [Line.compileAll_group hms hhead]
        exact andThen_eq_ok_iff.2 ⟨_, _, hgroup, ih, rfl⟩

/-- A template is compiled if and only if its lines have a form. -/
theorem compile_eq_ok_iff {t : Template} {p : Program} :
    t.compile = .ok p ↔ LinesForm t.lineCount t.lines p.instructions ∧ p.ending = t.ending := by
  rw [Line.compile_eq, map_eq_ok_iff]
  simp only [compileAll_eq_ok_iff]
  constructor
  · rintro ⟨is, form, rfl⟩
    exact ⟨form, rfl⟩
  · obtain ⟨is, ending⟩ := p
    rintro ⟨form, rfl⟩
    exact ⟨is, form, rfl⟩

theorem ofSource_eq_ok_iff {source : String} {p : Program} :
    Program.ofSource source = .ok p ↔ ∃ t, Template.ofSource source = .ok t ∧
      LinesForm t.lineCount t.lines p.instructions ∧ p.ending = t.ending := by
  rw [Program.ofSource, bind_eq_ok_iff]
  simp only [compile_eq_ok_iff]

end MailTemplate
