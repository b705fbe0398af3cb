import MailTemplate.Proofs.Compile.Comments
import MailTemplate.Proofs.Template.Braces
import MailTemplate.Proofs.Template.Breaks

/-!
# A statement over several lines

A line of code may be broken where a statement may go on behind a line ending: the program is the same but
for line numbers (`ofSource_break`).
-/

namespace MailTemplate

open Text

/-- The number of a line when the line behind the line `k` becomes a part of it. -/
def joinAfter (k number : Nat) : Nat := if number ≤ k then number else number - 1

theorem joinAfter_shiftAfter (k number : Nat) : joinAfter k (shiftAfter k number) = number := by
  by_cases h : number ≤ k
  · rw [shiftAfter_of_le h, joinAfter, if_pos h]
  · have hlt := Nat.lt_of_not_le h
    rw [shiftAfter_of_lt hlt, joinAfter, if_neg (by omega), Nat.add_sub_cancel]

/-! ## Lines that join others -/

/-- `Joins f n' n ls ms`: under the numbers that `f` gives, the lines `ls` of a template of `n'` lines are
the lines `ms` of one of `n`, among which a line of code may stand for two. -/
inductive Joins (f : Nat → Nat) (n' n : Nat) : List Line → List Line → Prop
  | nil : Joins f n' n [] []
  | keep {l ls ms} : (f l.number == n) = (l.number == n') → Joins f n' n ls ms →
      Joins f n' n (l :: ls) (l.renumber f :: ms)
  | join {m₁ m₂ cs₁ cs₂ cs k ts₁ ts₂ ls ms} : f m₁ = f m₂ → tokens cs₁.toList = .ok ts₁ →
      tokens cs₂.toList = .ok ts₂ → tokens cs.toList = .ok (ts₁ ++ ts₂) → Joins f n' n ls ms →
      Joins f n' n (.code m₁ cs₁ k :: .code m₂ cs₂ k :: ls) (.code (f m₁) cs k :: ms)

section Joins

variable {f g : Nat → Nat} {n n' : Nat} {ls ms ns : List Line}

/-- Lines that have other numbers stay as they are if `f` takes these back. -/
theorem Joins.renumber (hf : ∀ m, f (g m) = m) (h : Joins f n' n ls ms)
    (hns : ∀ l ∈ ns, (g l.number == n') = (l.number == n)) :
    Joins f n' n (ns.map (Line.renumber g) ++ ls) (ns ++ ms) := by
  induction ns with
  | nil => exact h
  | cons l ns ih =>
      obtain ⟨hl, hns⟩ := List.forall_mem_cons.1 hns
      have hback : (l.renumber g).renumber f = l := by cases l <;> simp [Line.renumber, hf]
      have hnumber : (l.renumber g).number = g l.number := by cases l <;> rfl
      have hkeep : (f (l.renumber g).number == n) = ((l.renumber g).number == n') := by
        rw [hnumber, hf, hl]
      have hjoins := Joins.keep hkeep (ih hns)
      rwa [hback] at hjoins

theorem Joins.split (h : Joins f n' n ls (ms ++ ns)) :
    ∃ ls₁ ls₂, ls = ls₁ ++ ls₂ ∧ Joins f n' n ls₁ ms ∧ Joins f n' n ls₂ ns := by
  induction ms generalizing ls with
  | nil => exact ⟨[], ls, rfl, .nil, h⟩
  | cons m ms ih =>
      cases h with
      | keep hl h =>
          obtain ⟨ls₁, ls₂, rfl, h₁, h₂⟩ := ih h
          exact ⟨_ :: ls₁, ls₂, rfl, .keep hl h₁, h₂⟩
      | join hm hcs₁ hcs₂ hcs h =>
          obtain ⟨ls₁, ls₂, rfl, h₁, h₂⟩ := ih h
          exact ⟨_ :: _ :: ls₁, ls₂, rfl, .join hm hcs₁ hcs₂ hcs h₁, h₂⟩

theorem Joins.block {k : Nat} (h : Joins f n' n ls ms) (hms : ∀ m ∈ ms, m.block = some k) :
    ∀ l ∈ ls, l.block = some k := by
  induction h with
  | nil => nofun
  | @keep l _ _ _ _ ih =>
      obtain ⟨hm, hms⟩ := List.forall_mem_cons.1 hms
      rw [l.block_renumber] at hm
      exact List.forall_mem_cons.2 ⟨hm, ih hms⟩
  | join _ _ _ _ _ ih =>
      obtain ⟨hm, hms⟩ := List.forall_mem_cons.1 hms
      exact List.forall_mem_cons.2 ⟨hm, List.forall_mem_cons.2 ⟨hm, ih hms⟩⟩

theorem Joins.block_head {k : Nat} (h : Joins f n' n ls ms) (hms : ∀ m ∈ ms.head?, m.block ≠ some k) :
    ∀ l ∈ ls.head?, l.block ≠ some k := by
  cases h with
  | nil => nofun
  | @keep l _ _ _ _ =>
      rintro _ ⟨⟩
      rw [← l.block_renumber]
      exact hms _ rfl
  | @join m _ _ _ cs k =>
      rintro _ ⟨⟩
      exact hms (.code (f m) cs k) rfl

theorem textInstructions_renumber_iff {number : Nat} {fragments : List Fragment}
    {output : List Instruction} (hlast : (f number == n) = (number == n')) :
    textInstructions (f number) fragments (f number == n) = .ok output ↔
      ∃ is, textInstructions number fragments (number == n') = .ok is ∧ renumberAll f is = output := by
  rw [hlast, textInstructions_relocate, relocate_eq_ok_iff]

theorem pieces_renumber_iff {l : Line} {ps : List Piece} (hlast : (f l.number == n) = (l.number == n')) :
    (l.renumber f).pieces n = .ok ps ↔ ∃ qs, l.pieces n' = .ok qs ∧ qs.map (Piece.renumber f) = ps := by
  rw [← Line.relocate_zero, Line.pieces_relocate (Line.isLast_relocate hlast), relocate_eq_ok_iff]

theorem pieces_code {number k : Nat} {cs : String} {ts : List Token} (h : tokens cs.toList = .ok ts) :
    (Line.code number cs k).pieces n = .ok (ts.map (.token number)) := by
  rw [Line.pieces, Piece.ofCode, h]

theorem Joins.pieces {pss : List (List Piece)} (h : Joins f n' n ls ms) (hps : PiecesOf n ms pss) :
    ∃ qss, PiecesOf n' ls qss ∧ qss.flatten.map (Piece.renumber f) = pss.flatten := by
  induction h generalizing pss with
  | nil =>
      cases hps
      exact ⟨[], .nil, rfl⟩
  | keep hl _ ih =>
      obtain ⟨ps, pss, hm, hms, rfl⟩ := List.forall₂_cons_left_iff.1 hps
      obtain ⟨qs, hqs, rfl⟩ := (pieces_renumber_iff hl).1 hm
      obtain ⟨qss, hqss, hflat⟩ := ih hms
      refine ⟨qs :: qss, .cons hqs hqss, ?_⟩
      rw [List.flatten_cons, List.map_append, hflat, List.flatten_cons]
  | join hm hcs₁ hcs₂ hcs _ ih =>
      obtain ⟨ps, pss, hfirst, hms, rfl⟩ := List.forall₂_cons_left_iff.1 hps
      rw [pieces_code hcs] at hfirst
      cases hfirst
      obtain ⟨qss, hqss, hflat⟩ := ih hms
      refine ⟨_ :: _ :: qss, .cons (pieces_code hcs₁) (.cons (pieces_code hcs₂) hqss), ?_⟩
      simp [Function.comp_def, hm, hflat]

/-- Lines have a form if the lines that join them do. -/
theorem LinesForm.of_joins {is : List Instruction} (form : LinesForm n ms is) (h : Joins f n' n ls ms) :
    ∃ js, LinesForm n' ls js ∧ renumberAll f js = is := by
  induction form generalizing ls with
  | nil =>
      cases h
      exact ⟨[], .nil, rfl⟩
  | @text number fragments output ms is houtput _ ih =>
      generalize hm : Line.text number fragments none = m at h
      cases h with
      | join => cases hm
      | @keep l ls _ hl h =>
          cases l with
          | code => cases hm
          | text number fragments b =>
              cases hm
              obtain ⟨output, houtput', rfl⟩ := (textInstructions_renumber_iff hl).1 houtput
              obtain ⟨js, form, rfl⟩ := ih h
              exact ⟨output ++ js, .text houtput' form, renumberAll_append f output js⟩
  | block hms hps form hhead _ ih =>
      obtain ⟨ls₁, ls₂, rfl, h₁, h₂⟩ := h.split
      obtain ⟨qss, hqss, hflat⟩ := h₁.pieces hps
      rw [← hflat] at form
      obtain ⟨is, form', rfl⟩ := StatementsForm.renumber_iff.1 form
      obtain ⟨js, more, rfl⟩ := ih h₂
      refine ⟨is ++ js, ?_, renumberAll_append f is js⟩
      exact .block (h₁.block hms) hqss form' (h₂.block_head hhead) more

end Joins

/-! ## A line broken in two -/

/-- The number of a line with one more line behind the line `k`, for any other line than that. -/
theorem shiftAfter_beq_of_ne {k n number : Nat} (hne : number ≠ k) (hkn : k ≤ n) :
    (shiftAfter k number == n + 1) = (number == n) := by
  rw [Bool.eq_iff_iff, beq_iff_eq, beq_iff_eq, shiftAfter]
  split <;> omega

/-- Other lines keep their place when the line `k` is broken in two. -/
theorem joins_break {k n block : Nat} {cs cs₁ cs₂ : String} {ts₁ ts₂ : List Token} {ls more : List Line}
    (hsorted : ((ls ++ .code k cs block :: more).map Line.number).Pairwise (· < ·)) (hkn : k ≤ n)
    (h₁ : tokens cs₁.toList = .ok ts₁) (h₂ : tokens cs₂.toList = .ok ts₂)
    (hcs : tokens cs.toList = .ok (ts₁ ++ ts₂)) :
    Joins (joinAfter k) (n + 1) n
      (ls ++ .code k cs₁ block :: .code (k + 1) cs₂ block :: more.map (Line.renumber (shiftAfter k)))
      (ls ++ .code k cs block :: more) := by
  rw [List.map_append, List.map_cons, List.pairwise_append, List.pairwise_cons] at hsorted
  obtain ⟨_, ⟨hmore, _⟩, hls⟩ := hsorted
  have hlsLess : ∀ l ∈ ls, l.number < k := fun l hl =>
    hls l.number (List.mem_map_of_mem hl) k List.mem_cons_self
  have hmoreKeep : ∀ l ∈ more, (shiftAfter k l.number == n + 1) = (l.number == n) := fun l hl =>
    shiftAfter_beq_of_ne (Nat.ne_of_gt (hmore l.number (List.mem_map_of_mem hl))) hkn
  have hlsKeep : ∀ l ∈ ls, (shiftAfter k l.number == n + 1) = (l.number == n) := fun l hl =>
    shiftAfter_beq_of_ne (Nat.ne_of_lt (hlsLess l hl)) hkn
  have hback := Joins.renumber (joinAfter_shiftAfter k) .nil hmoreKeep
  rw [List.append_nil, List.append_nil] at hback
  have hk : joinAfter k k = k := if_pos (Nat.le_refl k)
  have hbroken : Joins (joinAfter k) (n + 1) n
      (.code k cs₁ block :: .code (k + 1) cs₂ block :: more.map (Line.renumber (shiftAfter k)))
      (.code (joinAfter k k) cs block :: more) := by
    refine .join ?_ h₁ h₂ hcs hback
    rw [hk, joinAfter, if_neg (Nat.not_succ_le_self k), Nat.add_sub_cancel]
  rw [hk] at hbroken
  have hfront := hbroken.renumber (joinAfter_shiftAfter k) hlsKeep
  rwa [renumber_front fun l hl => Nat.le_of_lt (hlsLess l hl)] at hfront

section Break

variable {before head tail : String} {e : LineEnding} {rest : List Char} {lines : List (List Char)}
  {ls more : List Line} {r r' mid : Reader} {b : OpenBlock} {m k blocks : Nat} {text : String}
  {front back : List Lexeme} {t u : Lexeme} {p : Program}

/-- The first half of a broken line does not end with a carriage return. -/
theorem head_getLast? (hlex : Lexeme.all text.toList = .ok (front ++ [t] ++ u :: back))
    (hhead : head.toList = Lexeme.text (front ++ [t])) : head.toList.getLast? ≠ some '\r' := by
  obtain ⟨_, hbegins, _⟩ := Lexeme.all_eq_ok_iff.1 hlex
  obtain ⟨_, hfirst, _⟩ := hbegins.split
  rw [hhead]
  intro hlast
  have hblank := hfirst.not_blank_of_getLast? _ hlast
  revert hblank
  decide

theorem linesOf_break (hfeed : '\n' ∉ head.toList) (hlast : head.toList.getLast? ≠ some '\r')
    (hline : linesOf (head ++ tail) = (head.toList ++ rest) :: lines) :
    linesOf (before ++ "\n" ++ (head ++ e.text ++ tail)) =
      linesOf before ++ head.toList :: rest :: lines := by
  obtain ⟨l, ls, htail, hsplit⟩ := linesOf_cut hfeed hlast tail
  rw [hsplit] at hline
  obtain ⟨hl, rfl⟩ := List.cons.inj hline
  obtain rfl := List.append_cancel_left hl
  rw [linesOf_append, linesOf_cons hfeed hlast, htail]

/-- What is read with a line broken in two, if the halves leave the reader as the line does. -/
theorem run_break {line : List Char} {c c₁ c₂ : Line}
    (hrun : Reader.start.run 1 (linesOf before) = .ok (ls, r))
    (hline : r.step ((linesOf before).length + 1) line = .ok (some c, r'))
    (hmore : r'.run ((linesOf before).length + 1 + 1) lines = .ok (more, ⟨blocks, none⟩))
    (h₁ : r.step ((linesOf before).length + 1) head.toList = .ok (some c₁, mid))
    (h₂ : mid.step ((linesOf before).length + 1 + 1) rest = .ok (some c₂, r')) :
    Reader.start.run 1 (linesOf before ++ head.toList :: rest :: lines) =
      .ok (ls ++ c₁ :: c₂ :: more.map (Line.renumber (shiftAfter ((linesOf before).length + 1))),
        ⟨blocks, none⟩) := by
  have hopened : ∀ b ∈ r'.current, b.openedAt ≤ (linesOf before).length + 1 := fun b hb => by
    have := ((Reader.run_reached hrun).step (Reader.step_steps (Nat.add_comm 1 _ ▸ hline))).openedAt b hb
    omega
  refine Reader.run_append_eq_ok_iff.2 ⟨_, _, _, hrun, ?_, rfl⟩
  rw [Nat.add_comm 1]
  refine Reader.run_cons_eq_ok_iff.2 ⟨_, _, _, h₁, ?_, rfl⟩
  exact Reader.run_cons_eq_ok_iff.2 ⟨_, _, _, h₂, Reader.run_shift hopened rfl hmore, rfl⟩

/-- A template in which a line of code is broken behind one of its tokens, where the statement may go on
in the next line, is compiled to the same program, with the line numbers of the broken lines. -/
theorem ofSource_break
    (hp : Program.ofSource (before ++ "\n" ++ (head ++ tail)) = .ok p)
    (hrun : Reader.start.run 1 (linesOf before) = .ok (ls, r)) (hr : r.current = some b)
    (hline : linesOf (head ++ tail) = (head.toList ++ rest) :: lines)
    (hcode : r.step ((linesOf before).length + 1) (head.toList ++ rest) = .ok (some (.code m text k), r'))
    (hlex : Lexeme.all text.toList = .ok (front ++ [t] ++ u :: back))
    (hhead : head.toList = Lexeme.text (front ++ [t])) (hbreak : MayBreak t.token u.token)
    (he : e = .crlf → p.ending = .crlf) :
    ∃ q, Program.ofSource (before ++ "\n" ++ (head ++ e.text ++ tail)) = .ok q ∧
      q.renumber (joinAfter ((linesOf before).length + 1)) = p := by
  have hfeed : '\n' ∉ head.toList := fun hfeed =>
    not_mem_of_linesOf (hline ▸ List.mem_cons_self) (List.mem_append_left rest hfeed)
  have hlast := head_getLast? hlex hhead
  obtain ⟨template, htemplate, form, hending⟩ := ofSource_eq_ok_iff.1 hp
  obtain ⟨after, blocks, hlines, hafter, hcount⟩ := ofSource_append hrun htemplate
  obtain ⟨_, hall, _, hend⟩ := Reader.ofSource_eq_ok_iff.1 htemplate
  have hsorted := (Reader.run_ordered hall).1
  -- What the line and the lines behind it give.
  rw [hline] at hafter hcount
  obtain ⟨o, mid, more, ho, hmore, rfl⟩ := Reader.run_cons_eq_ok_iff.1 hafter
  rw [hcode] at ho
  cases ho
  obtain rfl : m = (linesOf before).length + 1 := (Reader.step_steps hcode).number_eq rfl
  rw [hlines] at form hsorted
  -- What the halves give.
  have hhalves := hcode
  rw [hhead] at hhalves
  obtain ⟨mid, text', htext, h₁, h₂⟩ :=
    Reader.step_break hr (Reader.run_open_depth_pos hrun hr) hhalves hlex hbreak
  rw [← hhead] at h₁
  have htokens := tokens_of_all hlex
  rw [htext] at hlex
  obtain ⟨hfirst, hsecond⟩ := Lexeme.all_cut hlex
  rw [Lexeme.tokensOf_append] at htokens
  rw [← hhead, ← String.toList_ofList (l := head.toList)] at hfirst
  rw [← String.toList_ofList (l := text')] at hsecond
  have hjoins := joins_break hsorted (n := template.lineCount) (by rw [hcount]; simp)
    (tokens_of_all hfirst) (tokens_of_all hsecond) htokens
  obtain ⟨js, form', hjs⟩ := form.of_joins hjoins
  have hbroken : linesOf (before ++ "\n" ++ (head ++ e.text ++ tail)) =
      linesOf before ++ head.toList :: rest :: lines := linesOf_break hfeed hlast hline
  refine ⟨⟨js, p.ending⟩, ofSource_eq_ok_iff.2 ⟨⟨_, template.lineCount + 1, template.ending⟩,
    Reader.ofSource_eq_ok_iff.2 ⟨blocks, ?_, ?_, ?_⟩, form', hending⟩, ?_⟩
  · rw [hbroken]
    exact run_break hrun hcode hmore (h₁ _) (h₂ _)
  · rw [hbroken, hcount]
    simp
    omega
  · rw [hend]
    exact (LineEnding.ofText_cut hfeed hlast fun hcrlf => by rw [← hend, ← hending, he hcrlf]).symm
  · rw [Program.renumber, hjs]

end Break

theorem ofSource_sum :
    Program.ofSource ("@\x7b" ++ "\n" ++ ("x = a" ++ " + b;\n\x7d\nc")) =
      .ok ⟨[.change (.assign 2 "x" .set (.binary .add (.path ["a"]) (.path ["b"]))),
        .literal 4 "c"], .lf⟩ := by
  have hlines : linesOf ("@\x7b" ++ "\n" ++ ("x = a" ++ " + b;\n\x7d\nc")) =
      [['@', '{'], "x = a + b;".toList, ['}'], ['c']] := by decide
  have ht : Template.ofSource ("@\x7b" ++ "\n" ++ ("x = a" ++ " + b;\n\x7d\nc")) =
      .ok ⟨[.code 2 "x = a + b;" 0, .text 4 [.literal "c"] none], 4, .lf⟩ := by
    refine Reader.ofSource_eq_ok_iff.2 ⟨1, ?_, by decide, by decide⟩
    rw [hlines]
    cbv
  exact bind_eq_ok_iff.2 ⟨_, ht, by cbv⟩

/-- A sum broken before its sign. -/
theorem ofSource_break_sum :
    ∃ q, Program.ofSource ("@\x7b" ++ "\n" ++ ("x = a" ++ LineEnding.lf.text ++ " + b;\n\x7d\nc")) = .ok q ∧
      q.renumber (joinAfter 2) =
        ⟨[.change (.assign 2 "x" .set (.binary .add (.path ["a"]) (.path ["b"]))),
          .literal 4 "c"], .lf⟩ := by
  have hlines : linesOf "@\x7b" = [['@', '{']] := by decide
  have hrun : Reader.start.run 1 (linesOf "@\x7b") = .ok ([], ⟨1, some ⟨1, 1, 0, false, false⟩⟩) := by
    rw [hlines]
    cbv
  have hline : linesOf ("x = a" ++ " + b;\n\x7d\nc") =
      ("x = a".toList ++ " + b;".toList) :: [['}'], ['c']] := by decide
  have hcode : (⟨1, some ⟨1, 1, 0, false, false⟩⟩ : Reader).step ((linesOf "@\x7b").length + 1)
      ("x = a".toList ++ " + b;".toList) =
        .ok (some (.code 2 "x = a + b;" 0), ⟨1, some ⟨1, 1, 0, false, false⟩⟩) := by
    rw [hlines]
    cbv
  have hlex : Lexeme.all "x = a + b;".toList =
      .ok ([⟨[], ['x'], .ident "x"⟩, ⟨[' '], ['='], .symbol .assign⟩] ++ [⟨[' '], ['a'], .ident "a"⟩] ++
        ⟨[' '], ['+'], .symbol .plus⟩ :: [⟨[' '], ['b'], .ident "b"⟩, ⟨[], [';'], .symbol .semicolon⟩]) := by
    cbv
  have hbreak := ofSource_break (e := .lf) ofSource_sum hrun rfl hline hcode hlex (by decide)
    (.inr ⟨rfl, rfl⟩) (by decide)
  rwa [hlines] at hbreak

end MailTemplate
