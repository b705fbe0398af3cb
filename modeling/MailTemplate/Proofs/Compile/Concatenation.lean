import MailTemplate.Proofs.Compile.Account
import MailTemplate.Proofs.Compile.Relocation

/-!
# Sources put together

A source with another one behind it is compiled as the two are by themselves: the instructions of the first,
a newline if text ends it, and those of the second on later lines (`Program.ofSource_concat`).
-/

namespace MailTemplate

open Text

variable {a : String} {t : Template} {n n' : Nat}

namespace Line

theorem isLast_eq_false {l : Line} (h : l.number ≠ n) : l.isLast n = false := by
  cases l with
  | text => exact beq_eq_false_iff_ne.2 h
  | code => rfl

theorem pieces_congr {l : Line} (hlast : l.isLast n' = l.isLast n) : l.pieces n' = l.pieces n := by
  cases l with
  | code => rfl
  | text number fragments block =>
      change (number == n') = (number == n) at hlast
      rw [pieces, pieces, hlast]

/-- How long the source is matters to the line that ends it alone. -/
theorem compileAll_congr {ls : List Line} (hlast : ∀ l ∈ ls, l.isLast n' = l.isLast n) :
    compileAll n' ls = compileAll n ls := by
  have hgroup : ∀ g ∈ ls.splitBy fun a b => a.block == b.block, compileGroup n' g = compileGroup n g := by
    intro g hg
    have hmem : ∀ l ∈ g, l ∈ ls := fun l hl => by
      rw [← List.flatten_splitBy (fun a b => a.block == b.block) ls]
      exact List.mem_flatten.2 ⟨g, hg, hl⟩
    rw [compileGroup, compileGroup, mapM_congr fun l hl => pieces_congr (hlast l (hmem l hl))]
  rw [compileAll, compileAll, mapM_congr hgroup]

end Line

/-- With a line behind it a text line ends with a newline. -/
theorem textInstructions_goesOn {number : Nat} {fragments : List Fragment} {output : List Instruction}
    (h : textInstructions number fragments true = .ok output) :
    textInstructions number fragments false = .ok (output ++ [.newline number]) := by
  rw [textInstructions] at h ⊢
  obtain ⟨is, his, h⟩ := bind_eq_ok_iff.1 h
  cases h
  rw [his]
  rfl

/-- Text that is the last line of `n` is followed by a newline if there are `n'` lines. -/
theorem Line.compileAll_goesOn {front : List Line} {fragments : List Fragment} {is : List Instruction}
    (hfront : ∀ l ∈ front, l.isLast n' = l.isLast n) (hne : n ≠ n')
    (h : compileAll n (front ++ [.text n fragments none]) = .ok is) :
    compileAll n' (front ++ [.text n fragments none]) = .ok (is ++ [.newline n]) := by
  have happend (m : Nat) : compileAll m (front ++ [.text n fragments none]) = _ :=
    compileAll_append (by simp [block])
  rw [happend, compileAll_text, beq_self_eq_true] at h
  obtain ⟨js, ks, hjs, hks, rfl⟩ := andThen_eq_ok_iff.1 h
  obtain ⟨output, _, houtput, hnil, rfl⟩ := andThen_eq_ok_iff.1 hks
  cases hnil
  rw [happend, compileAll_text, compileAll_congr hfront, beq_eq_false_iff_ne.2 hne]
  refine andThen_eq_ok_iff.2 ⟨js, _, hjs, ?_, List.append_assoc ..⟩
  refine andThen_eq_ok_iff.2 ⟨_, [], textInstructions_goesOn houtput, rfl, ?_⟩
  simp

namespace Template

/-- What lines behind a template add to it: a newline, if its source ends with a text line. -/
def lastNewline (t : Template) : List Instruction :=
  if t.lines.any (·.isLast t.lineCount) then [.newline t.lineCount] else []

/-- The text line that ends a source stands behind all other lines, and is in no block. -/
theorem lines_of_isLast (ht : ofSource a = .ok t) {l : Line} (hl : l ∈ t.lines)
    (hlast : l.isLast t.lineCount = true) :
    ∃ front fragments, t.lines = front ++ [.text t.lineCount fragments none] ∧
      ∀ m ∈ front, m.isLast t.lineCount = false := by
  obtain ⟨_, hrun, _⟩ := Reader.ofSource_eq_ok_iff.1 ht
  have hordered := List.pairwise_map.1 (Reader.run_ordered hrun).1
  obtain ⟨front, back, hlines⟩ := List.append_of_mem hl
  cases l with
  | code => cases hlast
  | text number fragments block =>
      obtain rfl : number = t.lineCount := beq_iff_eq.1 hlast
      cases block with
      | some k =>
          obtain ⟨_, _, _, _, _, hlt⟩ := lt_of_inner ht hl
          exact absurd hlt (Nat.lt_irrefl _)
      | none =>
          rw [hlines, List.pairwise_append, List.pairwise_cons] at hordered
          obtain ⟨_, ⟨hback, _⟩, hfront⟩ := hordered
          cases back with
          | cons m back =>
              have hm : m ∈ t.lines := by simp [hlines]
              exact absurd (hback m List.mem_cons_self) (Nat.not_lt.2 (number_le ht hm))
          | nil =>
              refine ⟨front, fragments, hlines, fun m hm => Line.isLast_eq_false ?_⟩
              exact Nat.ne_of_lt (hfront m hm _ List.mem_cons_self)

/-- The lines of a source in front of others. -/
theorem compileAll_longer (ht : ofSource a = .ok t) {is : List Instruction}
    (h : Line.compileAll t.lineCount t.lines = .ok is) {m : Nat} (hm : 0 < m) :
    Line.compileAll (t.lineCount + m) t.lines = .ok (is ++ t.lastNewline) := by
  have hlonger : ∀ l ∈ t.lines, l.isLast (t.lineCount + m) = false := fun l hl =>
    Line.isLast_eq_false (by have := number_le ht hl; omega)
  cases hany : t.lines.any (·.isLast t.lineCount) with
  | false =>
      have hnone : ∀ l ∈ t.lines, l.isLast t.lineCount = false := by simpa using hany
      have hsame : ∀ l ∈ t.lines, l.isLast (t.lineCount + m) = l.isLast t.lineCount := fun l hl => by
        rw [hlonger l hl, hnone l hl]
      rw [Line.compileAll_congr hsame, h, lastNewline, hany]
      simp
  | true =>
      obtain ⟨l, hl, hlast⟩ := List.any_eq_true.1 hany
      obtain ⟨front, fragments, hlines, hfront⟩ := lines_of_isLast ht hl hlast
      have hsame : ∀ l ∈ front, l.isLast (t.lineCount + m) = l.isLast t.lineCount := fun l hl => by
        rw [hlonger l (by simp [hlines, hl]), hfront l hl]
      rw [hlines] at h ⊢
      rw [lastNewline, if_pos hany]
      exact Line.compileAll_goesOn hsame (by omega) h

theorem lineCount_pos (ht : ofSource a = .ok t) : 0 < t.lineCount := by
  obtain ⟨_, _, hcount, _⟩ := Reader.ofSource_eq_ok_iff.1 ht
  rw [hcount, linesOf, List.length_map]
  exact List.length_pos_of_ne_nil (splitLines_ne_nil _)

/-- The blocks of a source come before those of another behind it. -/
theorem block_lt (ht : ofSource a = .ok t) : ∀ l ∈ t.lines, ∀ j ∈ l.block, j < blocksIn a := by
  obtain ⟨blocks, hrun, _⟩ := Reader.ofSource_eq_ok_iff.1 ht
  rw [blocksIn, hrun]
  exact (Reader.run_reached hrun).blocks

/-- A template with another behind it is compiled as the two are, the second on later lines. -/
theorem compile_append (ht : ofSource a = .ok t) {p : Program} (hp : t.compile = .ok p) {b : String}
    {u : Template} (hu : ofSource b = .ok u) (ending : LineEnding) :
    (t.append u (blocksIn a) ending).compile = relocate (t.lineCount + ·)
      (fun q => ⟨p.instructions ++ t.lastNewline ++ renumberAll (t.lineCount + ·) q.instructions, ending⟩)
      u.compile := by
  rw [Line.compile_eq] at hp
  obtain ⟨is, his, rfl⟩ := map_eq_ok_iff.1 hp
  have hblocks : ∀ x ∈ t.lines, ∀ j ∈ x.block, ∀ y ∈ u.lines.map (Line.relocate (t.lineCount + ·) (blocksIn a)),
      y.block ≠ some j := by
    intro x hx j hj
    refine List.forall_mem_map.2 fun y _ h => ?_
    rw [Line.block_relocate] at h
    obtain ⟨i, _, rfl⟩ := Option.map_eq_some_iff.1 h
    have := block_lt ht x hx _ hj
    omega
  have hlast : ∀ l ∈ u.lines, (l.relocate (t.lineCount + ·) (blocksIn a)).isLast (t.lineCount + u.lineCount) =
      l.isLast u.lineCount := fun l _ => Line.isLast_relocate (by simp)
  have hall : Line.compileAll (t.lineCount + u.lineCount) (t.append u (blocksIn a) ending).lines = _ :=
    Line.compileAll_append hblocks
  rw [compileAll_longer ht his (lineCount_pos hu), Line.compileAll_relocate hlast] at hall
  rw [Line.compile_eq, Line.compile_eq]
  change (Line.compileAll (t.lineCount + u.lineCount) _).map _ = _
  rw [hall]
  cases Line.compileAll u.lineCount u.lines <;> rfl

end Template

/-- Compilation goes by lines. Behind a source that compiles another one is read as by itself, with its lines
and blocks counted on. The instructions are those of the first source, a newline if text ends it, and those of
the second on later lines; an error of the second is the same error on a later line. Where the first source
cannot be read, other than for a block left open at its end, no source behind it changes that. -/
theorem Program.ofSource_concat (a b : String) :
    (∀ t p, Template.ofSource a = .ok t → Program.ofSource a = .ok p →
      (∀ u, Template.ofSource b = .ok u → Template.ofSource (a ++ "\n" ++ b) =
        .ok ⟨t.lines ++ u.lines.map (Line.relocate (t.lineCount + ·) (blocksIn a)), t.lineCount + u.lineCount,
          LineEnding.ofText (a ++ "\n" ++ b)⟩) ∧
      (∀ q, Program.ofSource b = .ok q → Program.ofSource (a ++ "\n" ++ b) =
        .ok ⟨p.instructions ++ t.lastNewline ++ renumberAll (t.lineCount + ·) q.instructions,
          LineEnding.ofText (a ++ "\n" ++ b)⟩) ∧
      ∀ e, Program.ofSource b = .error e →
        Program.ofSource (a ++ "\n" ++ b) = .error (e.renumber (t.lineCount + ·))) ∧
    ∀ e, Template.ofSource a = .error e → (∀ n, e.cause ≠ .unterminatedBlock n) →
      Template.ofSource (a ++ "\n" ++ b) = .error e := by
  refine ⟨fun t p ht hp => ?_, fun e he hopen => Template.ofSource_concat_error he hopen b⟩
  have hp' : t.compile = .ok p := by
    rw [ofSource, ht] at hp
    exact hp
  have htemplate := Template.ofSource_behind ht b
  have hprogram : Program.ofSource (a ++ "\n" ++ b) = relocate (t.lineCount + ·)
      (fun q => ⟨p.instructions ++ t.lastNewline ++ renumberAll (t.lineCount + ·) q.instructions,
        LineEnding.ofText (a ++ "\n" ++ b)⟩) (Program.ofSource b) := by
    rw [ofSource, htemplate, ofSource]
    exact relocate_bind fun u hu => Template.compile_append ht hp' hu _
  refine ⟨fun u hu => ?_, fun q hq => ?_, fun e he => ?_⟩
  · rw [htemplate, hu]
    rfl
  · rw [hprogram, hq]
    rfl
  · rw [hprogram, he]
    rfl

/-- Text behind a block, with another block behind it, with one that is left open, and behind a line that
cannot be read. -/
theorem Program.ofSource_concat_block :
    Template.ofSource ("@\x7b y = z; \x7d\nx" ++ "\n" ++ "@\x7b y = z; \x7d") =
        .ok ⟨[.code 1 " y = z; " 0, .text 2 [.literal "x"] none, .code 3 " y = z; " 1], 3, .lf⟩ ∧
      Program.ofSource ("@\x7b y = z; \x7d\nx" ++ "\n" ++ "@\x7b y = z; \x7d") =
        .ok ⟨[.change (.assign 1 "y" .set (.path ["z"])), .literal 2 "x", .newline 2,
          .change (.assign 3 "y" .set (.path ["z"]))], .lf⟩ ∧
      Program.ofSource ("@\x7b y = z; \x7d\nx" ++ "\n" ++ "@\x7b") = .error ⟨3, .unterminatedBlock 3⟩ ∧
      Template.ofSource ("@\x7b\x7d" ++ "\n" ++ "@\x7b") = .error ⟨1, .emptyExpression⟩ := by
  have hfirst : Template.ofSource "@\x7b y = z; \x7d\nx" =
      .ok ⟨[.code 1 " y = z; " 0, .text 2 [.literal "x"] none], 2, .lf⟩ := by
    have hlines : linesOf "@\x7b y = z; \x7d\nx" = ["@\x7b y = z; \x7d".toList, ['x']] := by decide
    refine Reader.ofSource_eq_ok_iff.2 ⟨1, ?_, by decide, by decide⟩
    rw [hlines]
    cbv
  have hblock : Template.ofSource "@\x7b y = z; \x7d" = .ok ⟨[.code 1 " y = z; " 0], 1, .lf⟩ := by
    have hlines : linesOf "@\x7b y = z; \x7d" = ["@\x7b y = z; \x7d".toList] := by decide
    refine Reader.ofSource_eq_ok_iff.2 ⟨1, ?_, by decide, by decide⟩
    rw [hlines]
    cbv
  have hfirst' : Program.ofSource "@\x7b y = z; \x7d\nx" =
      .ok ⟨[.change (.assign 1 "y" .set (.path ["z"])), .literal 2 "x"], .lf⟩ :=
    bind_eq_ok_iff.2 ⟨_, hfirst, by cbv⟩
  have hblock' : Program.ofSource "@\x7b y = z; \x7d" =
      .ok ⟨[.change (.assign 1 "y" .set (.path ["z"]))], .lf⟩ := bind_eq_ok_iff.2 ⟨_, hblock, by cbv⟩
  have hopen : Program.ofSource "@\x7b" = .error ⟨1, .unterminatedBlock 1⟩ := by cbv
  have hempty : Template.ofSource "@\x7b\x7d" = .error ⟨1, .emptyExpression⟩ := by cbv
  have hblocks : blocksIn "@\x7b y = z; \x7d\nx" = 1 := by cbv
  have hending : LineEnding.ofText ("@\x7b y = z; \x7d\nx" ++ "\n" ++ "@\x7b y = z; \x7d") = .lf := by decide
  have hboth := (ofSource_concat "@\x7b y = z; \x7d\nx" "@\x7b y = z; \x7d").1 _ _ hfirst hfirst'
  rw [hblocks, hending] at hboth
  refine ⟨?_, ?_, ?_, ?_⟩
  · exact hboth.1 _ hblock
  · exact hboth.2.1 _ hblock'
  · exact ((ofSource_concat _ _).1 _ _ hfirst hfirst').2.2 _ hopen
  · exact (ofSource_concat _ _).2 _ hempty (by simp)

end MailTemplate
