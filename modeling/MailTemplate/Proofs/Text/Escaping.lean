import MailTemplate.Proofs.Text.Blank
import MailTemplate.Proofs.Text.Lines

/-!
# Escaped text

A text is escaped by doubling every `@`. The lines of the escaped text are those of the text, escaped
(`linesOf_escape`), and end as they do. Joining the lines of a text whose lines end alike gives the text
again (`joinLines_eq`).
-/

namespace MailTemplate.Text

/-- Text in which every `@` stands for itself. -/
def escapeChars (cs : List Char) : List Char := cs.flatMap fun c => if c = '@' then ['@', '@'] else [c]

def escape (s : String) : String := String.ofList (escapeChars s.toList)

/-- The lines of a text, with its line ending between them. -/
def joinLines (s : String) : String :=
  String.ofList (List.intercalate (LineEnding.ofText s).chars (linesOf s))

/-- The line feeds of a text all stand behind carriage returns, or none does, and the text does not end
with a carriage return. -/
structure EndsAlike (s : String) : Prop where
  feeds : (∀ front back, s.toList = front ++ '\n' :: back → front.getLast? = some '\r') ∨
    ∀ front back, s.toList = front ++ '\n' :: back → front.getLast? ≠ some '\r'
  last : s.toList.getLast? ≠ some '\r'

@[simp]
theorem escapeChars_nil : escapeChars [] = [] := rfl

@[simp]
theorem escapeChars_marker (cs : List Char) : escapeChars ('@' :: cs) = '@' :: '@' :: escapeChars cs := rfl

theorem escapeChars_cons {c : Char} (hc : c ≠ '@') (cs : List Char) :
    escapeChars (c :: cs) = c :: escapeChars cs := by
  rw [escapeChars, List.flatMap_cons, if_neg hc]
  rfl

theorem escapeChars_append (cs ds : List Char) :
    escapeChars (cs ++ ds) = escapeChars cs ++ escapeChars ds := List.flatMap_append

theorem escapeChars_of_not_mem {cs : List Char} (h : '@' ∉ cs) : escapeChars cs = cs := by
  induction cs with
  | nil => rfl
  | cons c cs ih =>
      rw [List.mem_cons, not_or] at h
      rw [escapeChars_cons (Ne.symm h.1), ih h.2]

theorem escape_of_not_mem {s : String} (h : '@' ∉ s.toList) : escape s = s := by
  rw [escape, escapeChars_of_not_mem h, String.ofList_toList]

@[simp]
theorem toList_escape (s : String) : (escape s).toList = escapeChars s.toList := String.toList_ofList

theorem head?_escapeChars (cs : List Char) : (escapeChars cs).head? = cs.head? := by
  cases cs with
  | nil => rfl
  | cons c cs =>
      by_cases hc : c = '@'
      · subst hc
        rfl
      · rw [escapeChars_cons hc]
        rfl

theorem trimStart_escapeChars (cs : List Char) : trimStart (escapeChars cs) = escapeChars (trimStart cs) := by
  induction cs with
  | nil => rfl
  | cons c cs ih =>
      by_cases hc : c = '@'
      · subst hc
        rfl
      · rw [escapeChars_cons hc]
        by_cases hblank : isBlank c = true
        · simpa [trimStart, hblank] using ih
        · rw [Bool.not_eq_true] at hblank
          rw [trimStart_cons hblank, trimStart_cons hblank, escapeChars_cons hc]

/-- In escaped text another `@` is behind the first. -/
theorem escapeChars_ne_marker {c : Char} (hc : c ≠ '@') (cs rest : List Char) :
    escapeChars cs ≠ '@' :: c :: rest := by
  intro h
  cases cs with
  | nil => cases h
  | cons d ds =>
      by_cases hd : d = '@'
      · subst hd
        rw [escapeChars_marker] at h
        exact hc (List.cons.inj (List.cons.inj h).2).1.symm
      · rw [escapeChars_cons hd] at h
        exact hd (List.cons.inj h).1

/-! ## Lines -/

theorem splitLines_escapeChars (cs : List Char) :
    splitLines (escapeChars cs) = (splitLines cs).map escapeChars := by
  induction cs with
  | nil => rfl
  | cons c cs ih =>
      cases hcs : splitLines cs with
      | nil => exact absurd hcs (splitLines_ne_nil cs)
      | cons l ls =>
          rw [hcs, List.map_cons] at ih
          by_cases hc : c = '@'
          · subst hc
            simp [splitLines, hcs, ih]
          · rw [escapeChars_cons hc]
            by_cases hfeed : c = '\n'
            · simp [splitLines, hfeed, hcs, ih]
            · simp [splitLines, hfeed, hcs, ih, escapeChars_cons hc]

theorem dropReturn_escapeChars (cs : List Char) :
    dropReturn (escapeChars cs) = escapeChars (dropReturn cs) := by
  rcases List.eq_nil_or_concat cs with rfl | ⟨front, c, rfl⟩
  · rfl
  · rw [List.concat_eq_append, escapeChars_append]
    by_cases hc : c = '\r'
    · subst hc
      simp [dropReturn, escapeChars_cons]
    · by_cases hmarker : c = '@'
      · subst hmarker
        simp [dropReturn, escapeChars_append]
      · simp [dropReturn, hc, escapeChars_append, escapeChars_cons hmarker]

theorem linesOf_escape (s : String) : linesOf (escape s) = (linesOf s).map escapeChars := by
  rw [linesOf, linesOf, toList_escape, splitLines_escapeChars, List.map_map, List.map_map]
  exact List.map_congr_left fun cs _ => dropReturn_escapeChars cs

namespace LineEnding

theorem hasReturn_escapeChars (cs : List Char) : hasReturn (escapeChars cs) = hasReturn cs := by
  induction cs with
  | nil => rfl
  | cons c cs ih =>
      by_cases hc : c = '@'
      · subst hc
        rw [escapeChars_marker, hasReturn_cons, hasReturn_cons, hasReturn_cons, ih]
        simp
      · rw [escapeChars_cons hc, hasReturn_cons, hasReturn_cons, ih, head?_escapeChars]

theorem ofText_escape (s : String) : ofText (escape s) = ofText s := by
  rw [ofText, toList_escape, hasReturn_escapeChars]
  rfl

end LineEnding

/-! ## Joining lines -/

/-- Texts line by line: the last line, and a line in front of a text. -/
theorem induction_on_lines {P : List Char → Prop} (last : ∀ l, '\n' ∉ l → P l)
    (more : ∀ l cs, '\n' ∉ l → P cs → P (l ++ '\n' :: cs)) (cs : List Char) : P cs := by
  by_cases hfeed : '\n' ∈ cs
  · obtain ⟨l, rest, hcs, hl⟩ := List.eq_append_cons_of_mem hfeed
    rw [hcs]
    exact more l rest hl (induction_on_lines last more rest)
  · exact last cs hfeed
termination_by cs.length
decreasing_by
  rw [hcs, List.length_append, List.length_cons]
  omega

theorem hasReturn_feed {cs : List Char} (h : cs.getLast? = some '\r') (ds : List Char) :
    LineEnding.hasReturn (cs ++ '\n' :: ds) = true := by
  obtain ⟨front, rfl⟩ := List.getLast?_eq_some_iff.1 h
  clear h
  induction front with
  | nil => rfl
  | cons c front ih =>
      rw [List.cons_append, List.cons_append, LineEnding.hasReturn_cons, ih, Bool.or_true]

theorem hasReturn_eq_false {cs : List Char}
    (h : ∀ front back, cs = front ++ '\n' :: back → front.getLast? ≠ some '\r') :
    LineEnding.hasReturn cs = false := by
  induction cs with
  | nil => rfl
  | cons c cs ih =>
      rw [LineEnding.hasReturn_cons, ih, Bool.or_false]
      · cases cs with
        | nil => simp
        | cons d ds =>
            by_cases hd : d = '\n'
            · subst hd
              have := h [c] ds rfl
              simpa using this
            · simp [hd]
      · rintro front back rfl hlast
        refine h (c :: front) back rfl ?_
        rw [List.getLast?_cons, hlast]
        rfl

/-- The line ending `e` is the one in front of every line feed. -/
def FeedsEnd (e : LineEnding) (cs : List Char) : Prop :=
  ∀ front back, cs = front ++ '\n' :: back → (front.getLast? = some '\r' ↔ e = .crlf)

theorem dropReturn_ending {e : LineEnding} {l : List Char} (h : l.getLast? = some '\r' ↔ e = .crlf) :
    dropReturn l ++ e.chars = l ++ ['\n'] := by
  cases e with
  | lf =>
      rw [dropReturn, if_neg (by simp [h])]
      rfl
  | crlf =>
      obtain ⟨front, rfl⟩ := List.getLast?_eq_some_iff.1 (h.2 rfl)
      simp [dropReturn, LineEnding.chars]

theorem intercalate_dropReturn {e : LineEnding} {cs : List Char} (hfeeds : FeedsEnd e cs)
    (hlast : cs.getLast? ≠ some '\r') : List.intercalate e.chars ((splitLines cs).map dropReturn) = cs := by
  induction cs using induction_on_lines with
  | last l hl =>
      rw [splitLines_of_not_mem hl, List.map_singleton, List.intercalate_singleton, dropReturn, if_neg hlast]
  | more l cs hl ih =>
      have hrest : FeedsEnd e cs := by
        rintro front back rfl
        rw [← hfeeds (l ++ '\n' :: front) back (by simp)]
        cases front <;> simp [List.getLast?_cons, List.getLast?_append]
      have hlast' : cs.getLast? ≠ some '\r' := by
        intro hcs
        refine hlast ?_
        rw [List.getLast?_append, List.getLast?_cons, hcs]
        rfl
      have hne : (splitLines cs).map dropReturn ≠ [] := by simpa using splitLines_ne_nil cs
      rw [splitLines_append, splitLines_of_not_mem hl, List.map_append, List.map_singleton,
        List.singleton_append, List.intercalate_cons_of_ne_nil hne, ih hrest hlast',
        dropReturn_ending (hfeeds l cs rfl)]
      simp

theorem EndsAlike.feedsEnd {s : String} (h : EndsAlike s) : FeedsEnd (LineEnding.ofText s) s.toList := by
  intro front back hs
  rcases h.feeds with hall | hnone
  · have hreturn : LineEnding.hasReturn s.toList = true := by
      rw [hs]
      exact hasReturn_feed (hall front back hs) back
    simp [LineEnding.ofText, hreturn, hall front back hs]
  · simp [LineEnding.ofText, hasReturn_eq_false hnone, hnone front back hs]

/-- The lines of a text whose lines end alike make it up. -/
theorem joinLines_eq {s : String} (h : EndsAlike s) : joinLines s = s := by
  rw [joinLines, linesOf, intercalate_dropReturn h.feedsEnd h.last, String.ofList_toList]

end MailTemplate.Text
