import MailTemplate.Text.Lines

/-!
# Lines of a text with one more line ending

A line put between two lines of a text leaves the others as they are (`linesOf_insert`), and so does a
line ending put into a line (`linesOf_cut`). The text ends its lines as before unless the new line ending
is the first to have a carriage return (`ofText_insert`, `ofText_cut`).
-/

namespace MailTemplate.Text

theorem splitLines_append (cs ds : List Char) :
    splitLines (cs ++ '\n' :: ds) = splitLines cs ++ splitLines ds := by
  induction cs with
  | nil => simp [splitLines]
  | cons c cs ih =>
      by_cases hc : c = '\n'
      · simp [splitLines, hc, ih]
      · cases hcs : splitLines cs with
        | nil => exact absurd hcs (splitLines_ne_nil cs)
        | cons l ls => simp [splitLines, hc, ih, hcs]

theorem splitLines_cut {cs : List Char} (h : '\n' ∉ cs) (ds : List Char) :
    ∃ l ls, splitLines ds = l :: ls ∧ splitLines (cs ++ ds) = (cs ++ l) :: ls := by
  induction cs with
  | nil =>
      cases hds : splitLines ds with
      | nil => exact absurd hds (splitLines_ne_nil ds)
      | cons l ls => exact ⟨l, ls, rfl, hds⟩
  | cons c cs ih =>
      obtain ⟨l, ls, hds, hcs⟩ := ih fun hcs => h (List.mem_cons_of_mem c hcs)
      have hc : c ≠ '\n' := fun he => h (he ▸ List.mem_cons_self)
      exact ⟨l, ls, hds, by simp [splitLines, hc, hcs]⟩

theorem splitLines_of_not_mem {cs : List Char} (h : '\n' ∉ cs) : splitLines cs = [cs] := by
  obtain ⟨l, ls, hnil, hcs⟩ := splitLines_cut h []
  cases hnil
  rwa [List.append_nil] at hcs

theorem not_mem_of_splitLines {cs l : List Char} (h : l ∈ splitLines cs) : '\n' ∉ l := by
  induction cs generalizing l with
  | nil => simp_all [splitLines]
  | cons c cs ih =>
      rw [splitLines] at h
      split at h
      · rcases List.mem_cons.1 h with rfl | h
        · exact List.not_mem_nil
        · exact ih h
      · rename_i hc
        cases hcs : splitLines cs with
        | nil => exact absurd hcs (splitLines_ne_nil cs)
        | cons l' ls =>
            rw [hcs] at h ih
            rcases List.mem_cons.1 h with rfl | h
            · rw [List.mem_cons, not_or]
              exact ⟨Ne.symm hc, ih List.mem_cons_self⟩
            · exact ih (List.mem_cons_of_mem l' h)

theorem linesOf_append (a b : String) : linesOf (a ++ "\n" ++ b) = linesOf a ++ linesOf b := by
  have hchars : (a ++ "\n" ++ b).toList = a.toList ++ '\n' :: b.toList := by simp
  rw [linesOf, hchars, splitLines_append, List.map_append]
  rfl

theorem dropReturn_append {cs : List Char} (h : cs.getLast? ≠ some '\r') (ds : List Char) :
    dropReturn (cs ++ ds) = cs ++ dropReturn ds := by
  cases ds with
  | nil => simp [dropReturn, h]
  | cons d ds =>
      have hds : (cs ++ d :: ds).getLast? = (d :: ds).getLast? := by simp [List.getLast?_cons]
      rw [dropReturn, dropReturn, hds]
      split
      · rw [List.dropLast_append_of_ne_nil (List.cons_ne_nil d ds)]
      · rfl

theorem dropReturn_subset (cs : List Char) : dropReturn cs ⊆ cs := by
  unfold dropReturn
  split
  · exact List.dropLast_subset cs
  · exact List.Subset.refl cs

theorem not_mem_of_linesOf {s : String} {line : List Char} (h : line ∈ linesOf s) : '\n' ∉ line := by
  obtain ⟨l, hl, rfl⟩ := List.mem_map.1 h
  exact fun hfeed => not_mem_of_splitLines hl (dropReturn_subset l hfeed)

section Cut

variable {line : String} (hfeed : '\n' ∉ line.toList) (hlast : line.toList.getLast? ≠ some '\r')

include hfeed hlast

/-- A line and what ends it, in front of a text. -/
theorem linesOf_cons (e : LineEnding) (b : String) :
    linesOf (line ++ e.text ++ b) = line.toList :: linesOf b := by
  cases e with
  | lf =>
      have hline : linesOf line = [line.toList] := by
        rw [linesOf, splitLines_of_not_mem hfeed, List.map_singleton, dropReturn, if_neg hlast]
      have := linesOf_append line b
      rwa [hline] at this
  | crlf =>
      have hchars : (line ++ "\r").toList = line.toList ++ ['\r'] := by simp
      have hline : linesOf (line ++ "\r") = [line.toList] := by
        rw [linesOf, hchars, splitLines_of_not_mem (by simp [hfeed]), List.map_singleton,
          dropReturn_append hlast]
        simp [dropReturn]
      have hsplit : line ++ LineEnding.crlf.text ++ b = line ++ "\r" ++ "\n" ++ b := by
        simp [← String.toList_inj, LineEnding.text, LineEnding.chars]
      rw [hsplit, linesOf_append, hline]
      rfl

theorem linesOf_cut (b : String) :
    ∃ l ls, linesOf b = l :: ls ∧ linesOf (line ++ b) = (line.toList ++ l) :: ls := by
  obtain ⟨l, ls, hb, hline⟩ := splitLines_cut hfeed b.toList
  refine ⟨dropReturn l, ls.map dropReturn, by rw [linesOf, hb, List.map_cons], ?_⟩
  rw [linesOf, String.toList_append, hline, List.map_cons, dropReturn_append hlast]

end Cut

theorem linesOf_insert {line : String} (hfeed : '\n' ∉ line.toList) (hreturn : '\r' ∉ line.toList)
    (e : LineEnding) (a b : String) :
    linesOf (a ++ "\n" ++ (line ++ e.text ++ b)) = linesOf a ++ line.toList :: linesOf b := by
  rw [linesOf_append, linesOf_cons hfeed fun hlast => hreturn (List.mem_of_getLast? hlast)]

/-! ## Line endings -/

namespace LineEnding

theorem hasReturn_cons (c : Char) (cs : List Char) :
    hasReturn (c :: cs) = ((c == '\r' && cs.head? == some '\n') || hasReturn cs) := by
  rw [hasReturn.eq_def]
  split
  · rename_i he
    cases he
    rfl
  · rename_i hne he
    cases he
    cases hhead : (c == '\r' && cs.head? == some '\n') with
    | false => rfl
    | true =>
        simp only [Bool.and_eq_true, beq_iff_eq, List.head?_eq_some_iff] at hhead
        obtain ⟨rfl, ds, rfl⟩ := hhead
        exact (hne ds rfl rfl).elim
  · rename_i he
    cases he

theorem hasReturn_append (cs ds : List Char) :
    hasReturn (cs ++ '\n' :: ds) = (hasReturn (cs ++ ['\n']) || hasReturn ds) := by
  induction cs with
  | nil => simp [hasReturn_cons, hasReturn]
  | cons c cs ih =>
      have hhead : (cs ++ '\n' :: ds).head? = (cs ++ ['\n']).head? := by cases cs <;> rfl
      rw [List.cons_append, List.cons_append, hasReturn_cons, hasReturn_cons, ih, hhead, Bool.or_assoc]

theorem ofText_append (a b : String) :
    ofText (a ++ "\n" ++ b) =
      if hasReturn (a.toList ++ ['\n']) || hasReturn b.toList then crlf else lf := by
  have hchars : (a ++ "\n" ++ b).toList = a.toList ++ '\n' :: b.toList := by simp
  rw [ofText, hchars, hasReturn_append]

section Cut

variable {line : String} {e : LineEnding} {a b : String}

theorem hasReturn_prepend {cs : List Char} (hfeed : '\n' ∉ cs) (hlast : cs.getLast? ≠ some '\r')
    (ds : List Char) : hasReturn (cs ++ ds) = hasReturn ds := by
  induction cs with
  | nil => rfl
  | cons c cs ih =>
      have hc : (c == '\r' && (cs ++ ds).head? == some '\n') = false := by
        cases cs with
        | nil =>
            have hc : c ≠ '\r' := fun he => hlast (he ▸ rfl)
            simp [hc]
        | cons d cs =>
            have hd : d ≠ '\n' := fun he => hfeed (he ▸ List.mem_cons_of_mem c List.mem_cons_self)
            simp [hd]
      rw [List.cons_append, hasReturn_cons, hc, Bool.false_or]
      refine ih (fun h => hfeed (List.mem_cons_of_mem c h)) fun h => ?_
      cases cs with
      | nil => cases h
      | cons d cs => exact hlast (by rwa [List.getLast?_cons_cons])

/-- A line with its ending, in front of a text. -/
theorem hasReturn_line (hfeed : '\n' ∉ line.toList) (hlast : line.toList.getLast? ≠ some '\r')
    (e : LineEnding) (b : String) :
    hasReturn (line ++ e.text ++ b).toList = (e == crlf || hasReturn b.toList) := by
  have hchars : (line ++ e.text ++ b).toList = line.toList ++ (e.chars ++ b.toList) := by simp [text]
  rw [hchars, hasReturn_prepend hfeed hlast]
  cases e with
  | lf => exact hasReturn_cons _ _
  | crlf => rfl

theorem ofText_insert (hfeed : '\n' ∉ line.toList) (hreturn : '\r' ∉ line.toList)
    (he : e = crlf → ofText (a ++ "\n" ++ b) = crlf) :
    ofText (a ++ "\n" ++ (line ++ e.text ++ b)) = ofText (a ++ "\n" ++ b) := by
  have hline := hasReturn_line hfeed (fun hlast => hreturn (List.mem_of_getLast? hlast)) e b
  cases e with
  | lf =>
      rw [ofText_append, ofText_append, hline]
      rfl
  | crlf =>
      rw [he rfl, ofText_append, hline, if_pos]
      simp

theorem ofText_cut (hfeed : '\n' ∉ line.toList) (hlast : line.toList.getLast? ≠ some '\r')
    (he : e = crlf → ofText (a ++ "\n" ++ (line ++ b)) = crlf) :
    ofText (a ++ "\n" ++ (line ++ e.text ++ b)) = ofText (a ++ "\n" ++ (line ++ b)) := by
  have hline := hasReturn_line hfeed hlast e b
  have hchars : hasReturn (line ++ b).toList = hasReturn b.toList := by
    rw [String.toList_append, hasReturn_prepend hfeed hlast]
  cases e with
  | lf =>
      rw [ofText_append, ofText_append, hline, hchars]
      rfl
  | crlf =>
      rw [he rfl, ofText_append, hline, if_pos]
      simp

end Cut

end LineEnding

end MailTemplate.Text
