import MailTemplate.Proofs.Text.Lines

/-!
# Places within a line

A place in a text is given by what is before it and what is behind it. Text put there within the line leaves the
other lines as they are (`linesOf_around`), and every place in a line of a text is such a place (`linesOf_at`).
-/

namespace MailTemplate.Text

/-- The line that the end of a text is on. -/
def lastLine (cs : List Char) : List Char := (splitLines cs).getLast (splitLines_ne_nil cs)

/-- The line that the beginning of a text is on. -/
def firstLine (cs : List Char) : List Char := (splitLines cs).head (splitLines_ne_nil cs)

/-- What is before a place within its line. -/
def startOfLine (before : String) : List Char := lastLine before.toList

/-- What is behind a place within its line. -/
def restOfLine (after : String) : List Char := dropReturn (firstLine after.toList)

/-- The number of the line that a place is on. -/
def lineNumber (before : String) : Nat := (splitLines before.toList).length

def linesBefore (before : String) : List (List Char) := (splitLines before.toList).dropLast.map dropReturn

def linesBehind (after : String) : List (List Char) := (splitLines after.toList).tail.map dropReturn

theorem length_linesBefore (before : String) : (linesBefore before).length + 1 = lineNumber before := by
  have hpos := List.length_pos_iff.2 (splitLines_ne_nil before.toList)
  rw [linesBefore, List.length_map, List.length_dropLast, lineNumber]
  omega

theorem splitLines_join (cs ds : List Char) :
    splitLines (cs ++ ds) =
      (splitLines cs).dropLast ++ (lastLine cs ++ firstLine ds) :: (splitLines ds).tail := by
  induction cs with
  | nil =>
      rw [List.nil_append]
      exact (List.cons_head_tail (splitLines_ne_nil ds)).symm
  | cons c cs ih =>
      have hne := splitLines_ne_nil cs
      by_cases hc : c = '\n'
      · simp [splitLines, hc, ih, lastLine, List.dropLast_cons_of_ne_nil hne, List.getLast_cons hne]
      · cases hcs : splitLines cs with
        | nil => exact absurd hcs hne
        | cons l ls =>
            simp only [lastLine, hcs] at ih
            cases ls <;> simp [splitLines, hc, hcs, ih, lastLine]

theorem firstLine_cut (cs : List Char) : firstLine cs <+: cs := by
  induction cs with
  | nil => exact List.prefix_refl []
  | cons c cs ih =>
      by_cases hc : c = '\n'
      · simp [firstLine, splitLines, hc]
      · cases hcs : splitLines cs with
        | nil => exact absurd hcs (splitLines_ne_nil cs)
        | cons l ls =>
            simp only [firstLine, hcs, List.head_cons] at ih
            simpa [firstLine, splitLines, hc, hcs] using ih

theorem restOfLine_cut (after : String) : restOfLine after <+: after.toList := by
  refine List.IsPrefix.trans ?_ (firstLine_cut after.toList)
  unfold restOfLine dropReturn
  split
  · exact List.dropLast_prefix _
  · exact List.prefix_refl _

/-- Text put into a line, or in place of another text within a line, leaves the other lines as they are. -/
theorem linesOf_around {mid : String} (hne : mid.toList ≠ []) (hfeed : '\n' ∉ mid.toList)
    (hreturn : '\r' ∉ mid.toList) (a b : String) :
    linesOf (a ++ mid ++ b) =
      linesBefore a ++ (startOfLine a ++ (mid.toList ++ restOfLine b)) :: linesBehind b := by
  obtain ⟨l, ls, hb, hmid⟩ := splitLines_cut hfeed b.toList
  have hlast : (lastLine a.toList ++ mid.toList).getLast? ≠ some '\r' := by
    rw [List.getLast?_append, ne_eq, Option.or_eq_some_iff]
    rintro (hlast | ⟨hnone, _⟩)
    · exact hreturn (List.mem_of_getLast? hlast)
    · exact hne (List.getLast?_eq_none_iff.1 hnone)
  rw [linesOf, String.toList_append, String.toList_append, List.append_assoc, splitLines_join, List.map_append,
    List.map_cons]
  simp only [linesBefore, startOfLine, restOfLine, linesBehind, firstLine, hmid, hb, List.head_cons, List.tail_cons]
  rw [← List.append_assoc, dropReturn_append hlast, List.append_assoc]

namespace LineEnding

/-- Text within a line has no part in how the lines end. -/
theorem hasReturn_around {cs mid : List Char} (hne : mid ≠ []) (hfeed : '\n' ∉ mid) (hreturn : '\r' ∉ mid)
    (ds : List Char) : hasReturn (cs ++ (mid ++ ds)) = (hasReturn cs || hasReturn ds) := by
  induction cs with
  | nil => exact hasReturn_prepend hfeed (fun hlast => hreturn (List.mem_of_getLast? hlast)) ds
  | cons c cs ih =>
      have hhead : ((cs ++ (mid ++ ds)).head? == some '\n') = (cs.head? == some '\n') := by
        cases cs with
        | cons => rfl
        | nil =>
            obtain ⟨d, mid, rfl⟩ := List.exists_cons_of_ne_nil hne
            have hd : d ≠ '\n' := fun he => hfeed (he ▸ List.mem_cons_self)
            simp [hd]
      rw [List.cons_append, hasReturn_cons, hasReturn_cons, ih, hhead, Bool.or_assoc]

theorem ofText_around {mid : String} (hne : mid.toList ≠ []) (hfeed : '\n' ∉ mid.toList)
    (hreturn : '\r' ∉ mid.toList) (a b : String) :
    ofText (a ++ mid ++ b) = if hasReturn a.toList || hasReturn b.toList then crlf else lf := by
  rw [ofText, String.toList_append, String.toList_append, List.append_assoc, hasReturn_around hne hfeed hreturn]

end LineEnding

/-! ## Lines of a text -/

theorem splitLines_feed {l : List Char} (hl : '\n' ∉ l) (cs : List Char) :
    splitLines (l ++ '\n' :: cs) = l :: splitLines cs := by
  rw [splitLines_append, splitLines_of_not_mem hl, List.singleton_append]

/-- The text before a line ends with a line feed, if there is any, and a line feed is behind the line, unless it is the
last. -/
theorem splitLines_at {cs l : List Char} {front back : List (List Char)} (h : splitLines cs = front ++ l :: back) :
    ∃ before after, cs = before ++ (l ++ after) ∧ splitLines before = front ++ [[]] ∧
      ∀ c ∈ after.head?, c = '\n' := by
  induction front generalizing cs with
  | nil =>
      refine ⟨[], ?_⟩
      by_cases hfeed : '\n' ∈ cs
      · obtain ⟨l', rest, rfl, hl⟩ := List.eq_append_cons_of_mem hfeed
        rw [splitLines_feed hl] at h
        cases h
        exact ⟨'\n' :: rest, rfl, rfl, by simp⟩
      · rw [splitLines_of_not_mem hfeed] at h
        cases h
        exact ⟨[], by simp, rfl, nofun⟩
  | cons first front ih =>
      by_cases hfeed : '\n' ∈ cs
      · obtain ⟨l', rest, rfl, hl⟩ := List.eq_append_cons_of_mem hfeed
        rw [splitLines_feed hl] at h
        obtain ⟨rfl, hrest⟩ := List.cons.inj h
        obtain ⟨before, after, rfl, hbefore, hafter⟩ := ih hrest
        refine ⟨l' ++ '\n' :: before, after, by simp, ?_, hafter⟩
        rw [splitLines_feed hl, hbefore, List.cons_append]
      · rw [splitLines_of_not_mem hfeed] at h
        simp at h

theorem dropReturn_split {l front rest : List Char} (h : dropReturn l = front ++ rest) :
    ∃ rest', l = front ++ rest' ∧ dropReturn rest' = rest ∧ (rest' = rest ∨ rest' = rest ++ ['\r']) := by
  by_cases hlast : l.getLast? = some '\r'
  · obtain ⟨m, rfl⟩ := List.getLast?_eq_some_iff.1 hlast
    simp only [dropReturn, hlast, if_true, List.dropLast_concat] at h
    subst h
    exact ⟨rest ++ ['\r'], by simp, by simp [dropReturn], .inr rfl⟩
  · rw [dropReturn, if_neg hlast] at h
    subst h
    refine ⟨rest, rfl, ?_, .inl rfl⟩
    rw [dropReturn, if_neg]
    intro hrest
    rw [List.getLast?_append, hrest] at hlast
    exact hlast rfl

section Place

variable {before l after : List Char} {front : List (List Char)}

theorem splitLines_before (h : splitLines before = front ++ [[]]) (hl : '\n' ∉ l) :
    splitLines (before ++ l) = front ++ [l] := by
  rw [splitLines_join, h, firstLine, lastLine]
  simp [h, splitLines_of_not_mem hl]

theorem firstLine_before (hl : '\n' ∉ l) (hafter : ∀ c ∈ after.head?, c = '\n') : firstLine (l ++ after) = l := by
  cases after with
  | nil => simp [firstLine, splitLines_of_not_mem hl]
  | cons c after =>
      obtain rfl := hafter c rfl
      simp [firstLine, splitLines_feed hl]

end Place

/-- Text within a line of a source stands at a place of the source. -/
theorem linesOf_at {source mid : String} {l rest : List Char} {front back : List (List Char)}
    (h : linesOf source = front ++ (l ++ (mid.toList ++ rest)) :: back) :
    ∃ before after ending, source = before ++ mid ++ after ∧ startOfLine before = l ∧ restOfLine after = rest ∧
      lineNumber before = front.length + 1 ∧ after.toList = rest ++ ending ∧
      ∀ c ∈ ending.head?, c = '\r' ∨ c = '\n' := by
  rw [linesOf, List.map_eq_append_iff] at h
  obtain ⟨front, line, hsplit, rfl, hline⟩ := h
  obtain ⟨line, back, rfl, hdrop, _⟩ := List.map_eq_cons_iff.1 hline
  obtain ⟨a, b, hsource, ha, hb⟩ := splitLines_at hsplit
  rw [← List.append_assoc] at hdrop
  obtain ⟨rest', rfl, hrest, hreturn⟩ := dropReturn_split hdrop
  have hfeed := not_mem_of_splitLines (hsplit ▸ List.mem_append_right front List.mem_cons_self)
  simp only [List.mem_append, not_or] at hfeed
  have hbefore := splitLines_before ha hfeed.1.1
  have hbehind := firstLine_before hfeed.2 hb
  obtain ⟨ending, hending, hhead⟩ : ∃ ending, rest' ++ b = rest ++ ending ∧
      ∀ c ∈ ending.head?, c = '\r' ∨ c = '\n' := by
    rcases hreturn with rfl | rfl
    · exact ⟨b, rfl, fun c hc => .inr (hb c hc)⟩
    · exact ⟨'\r' :: b, by simp, fun c hc => .inl (by simpa using hc.symm)⟩
  refine ⟨String.ofList (a ++ l), String.ofList (rest' ++ b), ending, ?_, ?_, ?_, ?_, ?_, hhead⟩
  · rw [← String.toList_inj]
    simp [hsource]
  · rw [startOfLine, String.toList_ofList, lastLine]
    simp [hbefore]
  · rw [restOfLine, String.toList_ofList, hbehind, hrest]
  · rw [lineNumber, String.toList_ofList, hbefore]
    simp
  · rw [String.toList_ofList, hending]

end MailTemplate.Text
