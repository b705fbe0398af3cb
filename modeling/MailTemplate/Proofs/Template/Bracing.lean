import MailTemplate.Proofs.Template.Reaching

/-!
# Lines with a reference or its expression

A reference of a text line may be written as the expression of its path: within a block and outside of one the line
is still text (`IsInnerText.braced`, `HoldsExpression.braced`), and the reader takes the same fragments from it but for
that one (`step_braced`).
-/

namespace MailTemplate.Reader

open Text Fragment

/-- A line with a reference to a path. -/
def referring (front : List Char) (path : List String) (rest : List Char) : List Char :=
  front ++ '@' :: (pathChars path ++ rest)

/-- The line with the expression of the path in place of the reference. -/
def braced (front : List Char) (path : List String) (rest : List Char) : List Char :=
  front ++ '@' :: '{' :: (pathChars path ++ '}' :: rest)

variable {r r' : Reader} {b : OpenBlock} {number m : Nat} {front rest : List Char} {path : List String}
  {fragments : List Fragment} {block : Option Nat}

/-- What is behind an `@` tells whether the line begins with a marker only if there is nothing before the `@`. -/
theorem cons_of_trimStart_marker {c : Char} {cs ds : List Char} (hc : c ≠ '@') (hcs : ∀ es, cs ≠ c :: es)
    (h : trimStart (front ++ '@' :: cs) = '@' :: c :: ds) :
    ∃ back, trimStart front = '@' :: c :: back ∧ ds = back ++ '@' :: cs := by
  rw [trimStart_marker] at h
  match hfront : trimStart front, h with
  | [], h => exact absurd (List.cons.inj h).2 (hcs ds)
  | [_], h => exact absurd (List.cons.inj (List.cons.inj h).2).1.symm hc
  | _ :: _ :: back, h =>
      cases h
      exact ⟨back, rfl, rfl⟩

theorem path_ne_cons (hpath : IsPath path) {c : Char} (hc : isWordStart c = false) (ds : List Char) :
    pathChars path ++ rest ≠ c :: ds := by
  obtain ⟨d, cs, hcs, hd⟩ := hpath.exists_cons
  rw [hcs]
  intro h
  obtain ⟨rfl, _⟩ := List.cons.inj h
  rw [hd] at hc
  cases hc

/-- A marker of a text line stands before the `@` in it, if it is not that `@` itself. -/
theorem textOf_marker (block : Option Nat) (front : List Char) :
    ∃ back, ∀ cs, (∀ ds, cs ≠ ':' :: ds) → textOf block (front ++ '@' :: cs) = back ++ '@' :: cs := by
  cases block with
  | none => exact ⟨front, fun cs _ => textOf_none⟩
  | some k =>
      by_cases hmarked : ∃ back, trimStart front = '@' :: ':' :: back
      · obtain ⟨back, hback⟩ := hmarked
        refine ⟨back, fun cs _ => textOf_marked ?_⟩
        rw [trimStart_marker, hback]
        rfl
      · refine ⟨front, fun cs hcs => textOf_unmarked fun ds hds => hmarked ?_⟩
        obtain ⟨back, hback, _⟩ := cons_of_trimStart_marker (by decide) hcs hds
        exact ⟨back, hback⟩

theorem textOf_suffix (block : Option Nat) (line : List Char) : ∃ front, line = front ++ textOf block line := by
  unfold textOf
  split
  · rename_i rest hmarker
    refine ⟨leadingBlanks line ++ ['@', ':'], ?_⟩
    rw [List.append_assoc, List.cons_append, List.singleton_append, ← hmarker, leadingBlanks_append_trimStart]
  · exact ⟨[], rfl⟩

theorem IsInnerText.braced (hpath : IsPath path) (h : IsInnerText b (referring front path rest)) :
    IsInnerText b (braced front path rest) := by
  obtain ⟨_, hbegins, htext⟩ := h
  rw [referring, trim_marker] at hbegins htext
  refine ⟨by simp [Reader.braced, allBlank, show isBlank '@' = false from rfl], ?_, ?_⟩
  · rwa [Reader.braced, trim_marker, leadsWithOperator_marker _ _ (trimEnd (pathChars path ++ rest))]
  · rcases htext with ⟨ds, hds⟩ | hstatement
    · obtain ⟨back, hback, _⟩ := cons_of_trimStart_marker (by decide) (path_ne_cons hpath (by decide)) hds
      refine .inl ⟨back ++ '@' :: '{' :: (pathChars path ++ '}' :: rest), ?_⟩
      rw [Reader.braced, trimStart_marker, hback]
      rfl
    · rw [Reader.braced, trim_marker, isStatement_marker _ _ (trimEnd (pathChars path ++ rest))]
      exact .inr hstatement

theorem HoldsExpression.braced (hpath : IsPath path) (hfree : IsFree path)
    (h : HoldsExpression (referring front path rest))
    (hreaches : Reaches (referring front path rest) ('@' :: (pathChars path ++ rest))) :
    HoldsExpression (braced front path rest) := by
  intro cs hcs
  rw [Reader.braced, trimStart_marker] at hcs
  match hfront : trimStart front, hcs with
  | [], hcs =>
      -- The expression that the line begins with is the new one.
      cases hcs
      exact ⟨pathChars path, rest, scanCode_path hpath hfree rest, not_isStatement_path hpath hfree⟩
  | [_], hcs => cases hcs
  | _ :: _ :: back, hcs =>
      -- It is one before the reference, and closed there.
      cases hcs
      have hline : front = leadingBlanks front ++ '@' :: '{' :: back := by
        rw [← hfront, leadingBlanks_append_trimStart]
      have hmarker : '@' ∉ leadingBlanks front := not_mem_of_allBlank (allBlank_leadingBlanks front) rfl
      obtain ⟨before, after, hscan, hstatement⟩ := h (back ++ '@' :: (pathChars path ++ rest)) (by
        rw [referring, trimStart_marker, hfront]; rfl)
      have hcloses := scanCode_closed_iff.1 hscan
      rw [referring, hline, List.append_assoc] at hreaches
      have hbehind := hreaches.of_expression hmarker (path_ne_cons hpath (by decide)) hcloses.closing?
      obtain ⟨mid, rfl, _⟩ := hbehind.reads
      obtain rfl : back = before ++ '}' :: mid := by
        have hsplit : back ++ '@' :: (pathChars path ++ rest) =
            (before ++ '}' :: mid) ++ '@' :: (pathChars path ++ rest) := by
          rw [hcloses.eq_append Nat.one_pos, List.append_assoc, List.cons_append]
        exact List.append_cancel_right hsplit
      have hsame := hcloses.with_behind Nat.one_pos (mid ++ '@' :: '{' :: (pathChars path ++ '}' :: rest))
      rw [← List.cons_append, ← List.append_assoc] at hsame
      exact ⟨before, _, scanCode_closed_iff.2 hsame, hstatement⟩

/-- A text line with a reference is read alike with the expression of its path. -/
theorem step_braced (hpath : IsPath path) (hfree : IsFree path) (hrest : EndsPath rest)
    (h : r.step number (referring front path rest) = .ok (some (.text m fragments block), r'))
    (hreaches : Reaches (textOf block (referring front path rest)) ('@' :: (pathChars path ++ rest))) :
    ∃ before behind, fragments = before ++ reference path :: behind ∧
      r.step number (braced front path rest) =
        .ok (some (.text m (before ++ expression (".".intercalate path) :: behind) block), r') := by
  obtain ⟨htakes, rfl, hblock, hfragments, hsame⟩ := step_text_iff.1 h
  obtain ⟨back, hback⟩ := textOf_marker block front
  obtain ⟨front', before, behind, hcs, hfs, hbraced⟩ := ofLine_braced hfragments hpath hrest hreaches
  rw [referring, hback _ (path_ne_cons hpath (by decide))] at hcs
  obtain rfl := List.append_cancel_right hcs
  refine ⟨before, behind, hfs, step_text_iff.2 ⟨?_, rfl, hblock, ?_, hsame⟩⟩
  · unfold TakesText at htakes ⊢
    cases hr : r.current with
    | some b =>
        rw [hr] at htakes
        exact htakes.braced hpath
    | none =>
        rw [hr] at htakes hblock
        obtain rfl : block = none := hblock
        rw [textOf_none] at hreaches
        exact htakes.braced hpath hfree hreaches
  · rwa [braced, hback _ (by rintro ds ⟨⟩)]

end MailTemplate.Reader
