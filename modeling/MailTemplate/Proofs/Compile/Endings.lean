import MailTemplate.Proofs.Render.Newlines
import MailTemplate.Proofs.Template.Reading
import MailTemplate.Proofs.Text.Escaping
import MailTemplate.Value.Model

/-!
# Line endings of a source

A source with a carriage return put before every line feed has the same lines. It compiles to the same
instructions, or fails alike, and a render differs by what its newlines write alone
(`Program.ofSource_withReturns`).
-/

namespace MailTemplate

open Text

/-! ## Lines with carriage returns -/

namespace Text

/-- Text with a carriage return before every line feed. -/
def returnChars (cs : List Char) : List Char := cs.flatMap fun c => if c = '\n' then ['\r', '\n'] else [c]

def withReturns (s : String) : String := String.ofList (returnChars s.toList)

@[simp]
theorem toList_withReturns (s : String) : (withReturns s).toList = returnChars s.toList := String.toList_ofList

theorem returnChars_append (cs ds : List Char) : returnChars (cs ++ ds) = returnChars cs ++ returnChars ds :=
  List.flatMap_append

theorem returnChars_of_not_mem {cs : List Char} (h : '\n' ∉ cs) : returnChars cs = cs := by
  induction cs with
  | nil => rfl
  | cons c cs ih =>
      rw [List.mem_cons, not_or] at h
      rw [returnChars, List.flatMap_cons, if_neg (Ne.symm h.1), ← returnChars, ih h.2, List.singleton_append]

theorem returnChars_line {l : List Char} (hl : '\n' ∉ l) (cs : List Char) :
    returnChars (l ++ '\n' :: cs) = (l ++ ['\r']) ++ '\n' :: returnChars cs := by
  rw [returnChars_append, returnChars_of_not_mem hl]
  simp [returnChars]

theorem dropReturn_of_not_mem {cs : List Char} (h : '\r' ∉ cs) : dropReturn cs = cs := by
  rw [dropReturn, if_neg fun hlast => h (List.mem_of_getLast? hlast)]

theorem linesOf_returnChars {cs : List Char} (h : '\r' ∉ cs) :
    (splitLines (returnChars cs)).map dropReturn = (splitLines cs).map dropReturn := by
  induction cs using induction_on_lines with
  | last l hl => rw [returnChars_of_not_mem hl]
  | more l cs hl ih =>
      simp only [List.mem_append, List.mem_cons, not_or] at h
      obtain ⟨hreturn, _, hrest⟩ := h
      have hline : '\n' ∉ l ++ ['\r'] := by simp [hl]
      have hdrop : dropReturn (l ++ ['\r']) = l := by simp [dropReturn]
      rw [returnChars_line hl, splitLines_append, splitLines_append, splitLines_of_not_mem hl,
        splitLines_of_not_mem hline, List.map_append, List.map_append, ih hrest, List.map_singleton,
        List.map_singleton, hdrop, dropReturn_of_not_mem hreturn]

theorem linesOf_withReturns {s : String} (h : '\r' ∉ s.toList) : linesOf (withReturns s) = linesOf s := by
  rw [linesOf, toList_withReturns, linesOf_returnChars h, linesOf]

theorem LineEnding.ofText_of_not_mem {s : String} (h : '\r' ∉ s.toList) : ofText s = lf := by
  have hnone : hasReturn s.toList = false := by
    refine hasReturn_eq_false fun front back hs hlast => h ?_
    rw [hs]
    exact List.mem_append_left _ (List.mem_of_getLast? hlast)
  rw [ofText, hnone]
  rfl

theorem LineEnding.ofText_withReturns {s : String} (h : '\n' ∈ s.toList) : ofText (withReturns s) = crlf := by
  obtain ⟨l, rest, hs, hl⟩ := List.eq_append_cons_of_mem h
  rw [ofText, toList_withReturns, hs, returnChars_line hl, hasReturn_feed (by simp), if_pos rfl]

end Text

/-! ## Sources with carriage returns -/

theorem Template.ofSource_returns {s : String} (hreturn : '\r' ∉ s.toList) (hfeed : '\n' ∈ s.toList) :
    ofSource (withReturns s) = (ofSource s).map fun t => { t with ending := .crlf } := by
  simp only [ofSource, linesOf_withReturns hreturn, LineEnding.ofText_withReturns hfeed]
  split <;> rfl

theorem Template.compile_ending (t : Template) (e : LineEnding) :
    ({ t with ending := e } : Template).compile = t.compile.map fun p => { p with ending := e } := by
  change (do
    let is ← t.groups.mapM (Line.compileGroup t.lineCount)
    return (⟨is.flatten, e⟩ : Program)) = _
  rw [compile]
  cases t.groups.mapM (Line.compileGroup t.lineCount) <;> rfl

/-- A source that has its lines ended by line feeds alone, and the same source with a carriage return before each of
them, both fail with the same error, or compile to the same instructions; the programs end lines as their sources
do. Both render alike with every model: with the same error, or with the same warnings and the same text but for
what the newline instructions write. -/
theorem Program.ofSource_withReturns {s : String} (hreturn : '\r' ∉ s.toList) (hfeed : '\n' ∈ s.toList) :
    ofSource (withReturns s) = (ofSource s).map (fun p => { p with ending := .crlf }) ∧
      ∀ p, ofSource s = .ok p → p.ending = .lf ∧ ∀ o model,
        (∀ rounds, Respelled .lf .crlf (fun t => (p.spell t).outcome o rounds model) (p.outcome o rounds model)
          ({ p with ending := .crlf }.outcome o rounds model)) ∧
        Respelled .lf .crlf (fun t => (p.spell t).render o model) (p.render o model)
          ({ p with ending := .crlf }.render o model) := by
  refine ⟨?_, fun p hp => ?_⟩
  · rw [ofSource, ofSource, Template.ofSource_returns hreturn hfeed]
    cases Template.ofSource s with
    | error e => rfl
    | ok t => exact t.compile_ending .crlf
  · have hending : p.ending = .lf := by
      obtain ⟨t, ht, _, hending⟩ := ofSource_eq_ok_iff.1 hp
      obtain ⟨_, _, _, hofText⟩ := Reader.ofSource_eq_ok_iff.1 ht
      rw [hending, hofText, LineEnding.ofText_of_not_mem hreturn]
    refine ⟨hending, fun o model => ?_⟩
    have houtcome := fun rounds => p.outcome_respelled o rounds .crlf model
    rw [hending] at houtcome
    exact ⟨houtcome, houtcome (roundsFor o)⟩

/-- A value with a line feed of its own, printed at the end of a line. -/
def twoLines : Value := .object (.ofMembers [] [("a", .string "1\n2")])

/-- The value, a newline and a literal. -/
def valueThenLine (e : LineEnding) : Program := ⟨[.value 1 (.path ["a"]), .newline 1, .literal 2 "b"], e⟩

theorem Program.ofSource_withReturns_value :
    withReturns "@a\nb" = "@a\r\nb" ∧
      ofSource "@a\nb" = .ok (valueThenLine .lf) ∧ ofSource "@a\r\nb" = .ok (valueThenLine .crlf) ∧
      Respelled .lf .crlf (fun t => ((valueThenLine .lf).spell t).render ⟨false, none⟩ twoLines)
        (.ok ⟨"1\n2\nb", []⟩) (.ok ⟨"1\n2\r\nb", []⟩) := by
  have hreturns : withReturns "@a\nb" = "@a\r\nb" := by decide
  have ht : Template.ofSource "@a\nb" =
      .ok ⟨[.text 1 [.reference ["a"]] none, .text 2 [.literal "b"] none], 2, .lf⟩ := by
    have hlines : linesOf "@a\nb" = [['@', 'a'], ['b']] := by decide
    refine Reader.ofSource_eq_ok_iff.2 ⟨0, ?_, by decide, by decide⟩
    rw [hlines]
    cbv
  have hfirst : textInstructions 1 [.reference ["a"]] (1 == 2) = .ok [.value 1 (.path ["a"]), .newline 1] := by rfl
  have hlast : textInstructions 2 [.literal "b"] (2 == 2) = .ok [.literal 2 "b"] := by rfl
  have form := LinesForm.text hfirst (.text hlast .nil)
  have hp : ofSource "@a\nb" = .ok (valueThenLine .lf) := ofSource_eq_ok_iff.2 ⟨_, ht, form, rfl⟩
  have hlf : (valueThenLine .lf).render ⟨false, none⟩ twoLines = .ok ⟨"1\n2\nb", []⟩ := by rfl
  have hcrlf : (valueThenLine .crlf).render ⟨false, none⟩ twoLines = .ok ⟨"1\n2\r\nb", []⟩ := by rfl
  obtain ⟨hsource, hrender⟩ := ofSource_withReturns (s := "@a\nb") (by decide) (by decide)
  have hrespelled := ((hrender _ hp).2 ⟨false, none⟩ twoLines).2
  rw [hreturns, hp] at hsource
  rw [hlf] at hrespelled
  exact ⟨hreturns, hp, hsource, hcrlf ▸ hrespelled⟩

end MailTemplate
