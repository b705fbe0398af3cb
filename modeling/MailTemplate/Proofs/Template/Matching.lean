import MailTemplate.Proofs.Template.Printing

/-!
# The two searches for a closing brace

Where the scan of a code block comes to an end, the search for the brace that closes an expression does, too
(`closing?_eq_some_iff`, `closing?_eq_none_iff`), unless a comment ends the scan. So a line that begins with the marker
of a block and is kept as text has its first expression up to the brace that the scan found (`Reader.braces_match`).
-/

namespace MailTemplate

open Text Fragment

/-! ## Scans that are open in the end -/

/-- The scan of a text, with `depth` braces open before it, passes tokens up to a comment. -/
def MeetsComment (depth : Nat) (cs : List Char) : Prop :=
  ∃ ls rest, Begins cs ls rest ∧ StaysOpen depth (Lexeme.tokensOf ls) ∧ startsComment (trimStart rest) = true

theorem MeetsComment.opened {depth : Nat} {cs : List Char} (h : MeetsComment depth cs) (last : Option Token) :
    ∃ d t, scanCode depth last cs = .ok (.opened d t) := by
  obtain ⟨ls, rest, hbegins, hopen, hcomment⟩ := h
  rw [scanCode_begins hbegins hopen, scanCode_of_nothing (Lexeme.next?_of_nothing (.inr hcomment))]
  exact ⟨_, _, rfl⟩

theorem closing?_begins {cs rest : List Char} {ls : List Lexeme} {depth depth' : Nat} (h : Begins cs ls rest)
    (hopen : StaysOpen (depth + 1) (Lexeme.tokensOf ls))
    (hdepth : depthBehind (depth + 1) (Lexeme.tokensOf ls) = depth' + 1) :
    closing? depth none cs = (closing? depth' none rest).map (passing (Lexeme.text ls)) := by
  induction h generalizing depth with
  | nil =>
      obtain rfl : depth = depth' := Nat.succ.inj hdepth
      rw [Lexeme.text, List.flatMap_nil, passing_nil, Option.map_id, id]
  | @cons cs mid rest l ls hnext _ ih =>
      obtain ⟨hfirst, hmore⟩ := staysOpen_cons.1 hopen
      obtain ⟨between, hbetween⟩ := Nat.exists_eq_add_one_of_ne_zero hfirst.depthBehind_pos.ne'
      have hsplit : depthBehind (depth + 1) (Lexeme.tokensOf (l :: ls)) =
          depthBehind (between + 1) (Lexeme.tokensOf ls) := by
        rw [← hbetween]
        exact hfirst.depthBehind_append
      rw [hbetween] at hmore
      rw [closing?_next? hnext hbetween, ih hmore (hsplit.symm.trans hdepth), Option.map_map, passing_comp,
        Lexeme.text_cons]

theorem closing?_blank {cs : List Char} (h : allBlank cs = true) (depth : Nat) : closing? depth none cs = none := by
  have hplain : ∀ c ∈ cs, IsPlain c := fun c hc => isPlain_of_isBlank (List.all_eq_true.1 h c hc)
  have hpassed := closing?_plain hplain depth []
  rwa [List.append_nil, closing?] at hpassed

section Scans

variable {depth : Nat} {last : Option Token} {cs before after : List Char} {scan : CodeScan}

/-- A scan that ends with the text, and not at a comment, finds no brace, and neither does the search. -/
theorem closing?_of_opened {d : Nat} {t : Option Token}
    (h : scanCode (depth + 1) last cs = .ok (.opened d t)) (hcomment : ¬ MeetsComment (depth + 1) cs) :
    closing? depth none cs = none := by
  obtain ⟨ls, rest, scan, hbegins, hopen, hends, hscan⟩ := scanCode_eq_ok (Nat.succ_pos depth) h
  obtain ⟨depth', hdepth⟩ := Nat.exists_eq_add_one_of_ne_zero hopen.depthBehind_pos.ne'
  cases hends with
  | closed => cases hscan
  | opened hnext =>
      have hblank : allBlank rest = true :=
        (Lexeme.nothing_of_next? hnext).resolve_right fun h => hcomment ⟨ls, rest, hbegins, hopen, h⟩
      rw [closing?_begins hbegins hopen hdepth, closing?_blank hblank]
      rfl

theorem closing?_of_closed (h : scanCode (depth + 1) last cs = .ok (.closed before after)) :
    closing? depth none cs = some (before, after) :=
  (scanCode_closed_iff.1 h).closing?

theorem closing?_eq_some_iff (h : scanCode (depth + 1) last cs = .ok scan) (hcomment : ¬ MeetsComment (depth + 1) cs) :
    scan = .closed before after ↔ closing? depth none cs = some (before, after) := by
  cases scan with
  | opened => simp [closing?_of_opened h hcomment]
  | closed => simp [closing?_of_closed h]

theorem closing?_eq_none_iff (h : scanCode (depth + 1) last cs = .ok scan) (hcomment : ¬ MeetsComment (depth + 1) cs) :
    (∃ d t, scan = .opened d t) ↔ closing? depth none cs = none := by
  cases scan with
  | opened => simp [closing?_of_opened h hcomment]
  | closed => simp [closing?_of_closed h]

end Scans

/-! ## The first expression of a text line -/

namespace Fragment

/-- Blanks before the first fragment are literal text. -/
theorem ofLine_blanks {line cs : List Char} (h : trimStart line = '@' :: cs) :
    ofLine line = readFrom (leadingBlanks line).reverse ('@' :: cs) := by
  have hmarker : '@' ∉ leadingBlanks line := not_mem_of_allBlank (allBlank_leadingBlanks line) rfl
  have hread := readFrom_escaped [] (leadingBlanks line) ('@' :: cs)
  rwa [escapeChars_of_not_mem hmarker, ← h, leadingBlanks_append_trimStart, List.append_nil, h] at hread

/-- The first fragment of a line but for blanks, if it is an expression. -/
theorem ofLine_first {line cs body rest : List Char} (h : trimStart line = '@' :: '{' :: cs)
    (hclosing : closing? 0 none cs = some (body, rest)) :
    ofLine line = if allBlank body then .error .emptyExpression
      else (ofLine rest).map fun fs =>
        flush (leadingBlanks line).reverse ++ expression (String.ofList (trim body)) :: fs := by
  rw [ofLine_blanks h, readFrom_block _ hclosing]
  rfl

end Fragment

namespace Reader

variable {r : Reader} {number : Nat} {line cs before after : List Char}

theorem step_expression (hr : r.current = none) (hline : trimStart line = '@' :: '{' :: cs)
    (hscan : scanCode 1 none cs = .ok (.closed before after)) (hstatement : isStatement before = false) :
    r.step number line = (textLine number line none).map (·, r) := by
  simp only [step, hr, hline, openLine, hscan]
  change (if isStatement before then _ else _) = _
  rw [hstatement, if_neg Bool.false_ne_true]
  cases textLine number line none <;> rfl

/-- The scan for the end of a block and the search for the end of an expression agree on the brace, and on that there
is none. A line kept as text has its first expression up to the brace that the scan found. -/
theorem braces_match (cs : List Char) :
    (∀ scan, scanCode 1 none cs = .ok scan → ¬ MeetsComment 1 cs →
      (∀ before after, scan = .closed before after ↔ closing? 0 none cs = some (before, after)) ∧
        ((∃ depth last, scan = .opened depth last) ↔ closing? 0 none cs = none)) ∧
    ∀ (r : Reader) (number : Nat) (line : List Char), r.current = none → trimStart line = '@' :: '{' :: cs →
      r.TakesText line → ∃ before after, scanCode 1 none cs = .ok (.closed before after) ∧
        closing? 0 none cs = some (before, after) ∧ r.step number line = (textLine number line none).map (·, r) ∧
        Fragment.ofLine line = if allBlank before then .error .emptyExpression
          else (Fragment.ofLine after).map fun fs =>
            flush (leadingBlanks line).reverse ++ expression (String.ofList (trim before)) :: fs := by
  refine ⟨fun scan hscan hcomment => ?_, fun r number line hr hline htext => ?_⟩
  · exact ⟨fun _ _ => closing?_eq_some_iff hscan hcomment, closing?_eq_none_iff hscan hcomment⟩
  · rw [TakesText, hr] at htext
    obtain ⟨before, after, hscan, hstatement⟩ := htext cs hline
    have hclosing := closing?_of_closed hscan
    exact ⟨before, after, hscan, hclosing, step_expression hr hline hscan hstatement,
      Fragment.ofLine_first hline hclosing⟩

/-- What is behind the marker of an expression with braces in strings and around them, and more text. -/
def nestedBraces : List Char := " f['\x7b'] + \x7b\"\\\"\x7d\"\x7d \x7d, @b".toList

theorem braces_match_nested :
    closing? 0 none nestedBraces = some (" f['\x7b'] + \x7b\"\\\"\x7d\"\x7d ".toList, ", @b".toList) ∧
      start.step 1 ("  @\x7b".toList ++ nestedBraces) =
        .ok (some (.text 1 [.literal "  ", .expression "f['\x7b'] + \x7b\"\\\"\x7d\"\x7d", .literal ", ",
          .reference ["b"]] none), start) := by
  have hscan : scanCode 1 none nestedBraces =
      .ok (.closed " f['\x7b'] + \x7b\"\\\"\x7d\"\x7d ".toList ", @b".toList) := by cbv
  have hcomment : ¬ MeetsComment 1 nestedBraces := fun h => by
    obtain ⟨_, _, hopened⟩ := h.opened none
    cases hscan.symm.trans hopened
  have hline : trimStart ("  @\x7b".toList ++ nestedBraces) = '@' :: '{' :: nestedBraces := by cbv
  have htext : start.TakesText ("  @\x7b".toList ++ nestedBraces) := by
    intro rest hrest
    obtain ⟨_, hrest⟩ := List.cons.inj (hline.symm.trans hrest)
    obtain ⟨_, rfl⟩ := List.cons.inj hrest
    exact ⟨_, _, hscan, by cbv⟩
  obtain ⟨hmatch, hkept⟩ := braces_match nestedBraces
  refine ⟨((hmatch _ hscan hcomment).1 _ _).1 rfl, ?_⟩
  obtain ⟨before, after, hclosed, _, hstep, hfragments⟩ := hkept start 1 _ rfl hline htext
  obtain ⟨rfl, rfl⟩ := CodeScan.closed.inj (Except.ok.inj (hclosed.symm.trans hscan))
  have hblank : allBlank " f['\x7b'] + \x7b\"\\\"\x7d\"\x7d ".toList = false := by cbv
  have hafter : Fragment.ofLine ", @b".toList = .ok [.literal ", ", .reference ["b"]] := by cbv
  rw [hstep, textLine, hfragments, hblank, hafter]
  rfl

end Reader

end MailTemplate
