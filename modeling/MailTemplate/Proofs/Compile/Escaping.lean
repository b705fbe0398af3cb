import MailTemplate.Proofs.Compile.Lines
import MailTemplate.Proofs.Render.Run
import MailTemplate.Proofs.Template.Printing
import MailTemplate.Proofs.Template.Reading

/-!
# Escaped text stands for itself

Every line of an escaped text is a text line with one literal, which is the line of the text. The template
compiles to instructions that write the lines, whatever the model is (`Program.ofSource_escape`).
-/

namespace MailTemplate

open Text

theorem Fragment.readFrom_escapeChars (reversed cs : List Char) :
    readFrom reversed (escapeChars cs) = .ok (flush (cs.reverse ++ reversed)) := by
  have hread := readFrom_escaped reversed cs []
  rwa [List.append_nil, readFrom.eq_1] at hread

/-! ## Lines of escaped text -/

/-- The fragment of a line of literal text; an empty line has none. -/
def literalFragments (line : List Char) : List Fragment :=
  if line.isEmpty then [] else [.literal (String.ofList line)]

/-- Lines of literal text, of which the first has the given number. -/
def literalLines (number : Nat) : List (List Char) → List Line
  | [] => []
  | l :: ls => .text number (literalFragments l) none :: literalLines (number + 1) ls

theorem Fragment.ofLine_escapeChars (line : List Char) :
    ofLine (escapeChars line) = .ok (literalFragments line) := by
  rw [ofLine, readFrom_escapeChars, List.append_nil, flush, literalFragments, List.reverse_reverse,
    List.isEmpty_reverse]

namespace Reader

/-- Outside of blocks, a line of escaped text begins none. -/
theorem step_escapeChars (number : Nat) (line : List Char) :
    start.step number (escapeChars line) = .ok (some (.text number (literalFragments line) none), start) := by
  have hmarker (rest : List Char) : trimStart (escapeChars line) ≠ '@' :: '{' :: rest := by
    rw [trimStart_escapeChars]
    exact escapeChars_ne_marker (by decide) _ rest
  simp only [step, start]
  exact mapText_eq_ok_iff.2 ⟨_, Fragment.ofLine_escapeChars line, rfl, rfl⟩

theorem run_escapeChars (number : Nat) (lines : List (List Char)) :
    start.run number (lines.map escapeChars) = .ok (literalLines number lines, start) := by
  induction lines generalizing number with
  | nil => rfl
  | cons line lines ih => exact run_cons_eq_ok_iff.2 ⟨_, _, _, step_escapeChars number line, ih _, rfl⟩

end Reader

theorem Template.ofSource_escaped (s : String) :
    ofSource (escape s) = .ok ⟨literalLines 1 (linesOf s), (linesOf s).length, LineEnding.ofText s⟩ := by
  refine Reader.ofSource_eq_ok_iff.2 ⟨0, ?_, ?_, (LineEnding.ofText_escape s).symm⟩
  · rw [linesOf_escape]
    exact Reader.run_escapeChars 1 (linesOf s)
  · rw [linesOf_escape, List.length_map]

/-! ## Instructions that write -/

/-- What an instruction writes that needs no model for it. -/
def Instruction.writes? : Instruction → Option Chunk
  | literal _ text => some (.text text)
  | newline _ => some .newline
  | _ => none

/-- The instructions write the chunks, and do nothing else. -/
abbrev Writes : List Instruction → List Chunk → Prop := List.Forall₂ fun i c => i.writes? = some c

theorem execAll_writes {is : List Instruction} {cs : List Chunk} (h : Writes is cs) (o : RenderOptions)
    (rounds : Nat) (m : Machine) :
    execAll o rounds is m = .ok () { m with output := m.output ++ cs.toArray } := by
  induction h generalizing m with
  | nil => simp [execAll, pure, EStateM.pure]
  | @cons i c is cs hi _ ih =>
      have hexec : i.exec o rounds m = .ok () { m with output := m.output.push c } := by
        cases i <;> cases hi <;> rfl
      rw [execAll, Run.bind_eq_ok_iff]
      refine ⟨(), _, hexec, ?_⟩
      rw [ih]
      simp

/-- The text that chunks make up, with the line ending `e`. -/
def Chunk.textOf (e : LineEnding) (cs : List Chunk) : List Char := cs.flatMap fun c => (c.render e).toList

@[simp]
theorem Chunk.textOf_text (e : LineEnding) (s : String) : textOf e [.text s] = s.toList := by
  simp [textOf, render]

@[simp]
theorem Chunk.textOf_newline (e : LineEnding) : textOf e [.newline] = e.chars := by
  simp [textOf, render, LineEnding.text]

@[simp]
theorem Chunk.textOf_append (e : LineEnding) (cs ds : List Chunk) :
    textOf e (cs ++ ds) = textOf e cs ++ textOf e ds := List.flatMap_append

theorem Chunk.foldl_render (e : LineEnding) (cs : List Chunk) (s : String) :
    cs.foldl (fun s c => s ++ c.render e) s = s ++ String.ofList (textOf e cs) := by
  induction cs generalizing s with
  | nil => simp [textOf]
  | cons c cs ih =>
      rw [List.foldl_cons, ih, ← String.toList_inj]
      simp [textOf]

theorem Program.render_writes {p : Program} {cs : List Chunk} (h : Writes p.instructions cs)
    (o : RenderOptions) (model : Value) :
    p.render o model = .ok ⟨String.ofList (Chunk.textOf p.ending cs), []⟩ := by
  rw [render, run, execAll_writes h]
  simp [rendered, initial, Chunk.foldl_render]

/-! ## The program of escaped text -/

theorem mapM_literalFragments (number : Nat) (line : List Char) (e : LineEnding) :
    ∃ output cs, (literalFragments line).mapM (Fragment.toInstruction number) = .ok output ∧
      Writes output cs ∧ Chunk.textOf e cs = line := by
  cases line with
  | nil => exact ⟨[], [], rfl, .nil, rfl⟩
  | cons c cs => exact ⟨_, [.text (String.ofList (c :: cs))], rfl, .cons rfl .nil, by simp⟩

/-- What a line of literal text writes: itself, and a newline unless it is the last. -/
theorem textInstructions_literal (number : Nat) (line : List Char) (isLast : Bool) (e : LineEnding) :
    ∃ output cs, textInstructions number (literalFragments line) isLast = .ok output ∧ Writes output cs ∧
      Chunk.textOf e cs = if isLast then line else line ++ e.chars := by
  obtain ⟨output, cs, houtput, hwrites, htext⟩ := mapM_literalFragments number line e
  rw [textInstructions, houtput]
  cases isLast with
  | true => exact ⟨output, cs, rfl, hwrites, htext⟩
  | false =>
      refine ⟨output ++ [.newline number], cs ++ [.newline], rfl, List.rel_append hwrites (.cons rfl .nil), ?_⟩
      simp [htext]

theorem linesForm_literalLines (e : LineEnding) {lineCount number : Nat} {lines : List (List Char)}
    (hlast : number + lines.length = lineCount + 1) :
    ∃ is cs, LinesForm lineCount (literalLines number lines) is ∧ Writes is cs ∧
      Chunk.textOf e cs = List.intercalate e.chars lines := by
  induction lines generalizing number with
  | nil => exact ⟨[], [], .nil, .nil, rfl⟩
  | cons line lines ih =>
      rw [List.length_cons] at hlast
      have hnext : number + 1 + lines.length = lineCount + 1 := by omega
      obtain ⟨is, cs, form, hwrites, htext⟩ := ih hnext
      obtain ⟨output, ds, houtput, hwrites', htext'⟩ :=
        textInstructions_literal number line (number == lineCount) e
      refine ⟨output ++ is, ds ++ cs, .text houtput form, List.rel_append hwrites' hwrites, ?_⟩
      rw [Chunk.textOf_append, htext, htext']
      cases lines with
      | nil =>
          have hnumber : number = lineCount := by simpa using hlast
          simp [hnumber]
      | cons l ls =>
          have hnumber : number ≠ lineCount := by
            rintro rfl
            simp at hlast
          simp [hnumber, List.intercalate_cons_cons]

/-- The source compiles, and is rendered as the text, whatever the options and the model are. -/
def RendersTo (source text : String) : Prop :=
  ∃ p, Program.ofSource source = .ok p ∧ ∀ o model, p.render o model = .ok ⟨text, []⟩

theorem rendersTo_escape (s : String) : RendersTo (escape s) (joinLines s) := by
  obtain ⟨is, cs, form, hwrites, htext⟩ :=
    linesForm_literalLines (LineEnding.ofText s) (Nat.add_comm 1 (linesOf s).length)
  refine ⟨⟨is, LineEnding.ofText s⟩, ofSource_eq_ok_iff.2 ⟨_, Template.ofSource_escaped s, form, rfl⟩, ?_⟩
  intro o model
  rw [Program.render_writes hwrites, htext]
  rfl

/-- Text with every `@` doubled is rendered as its lines, joined as the text joins them, without warnings. If
the lines of the text end alike, that is the text itself; then text without any `@` is rendered unchanged. -/
theorem Program.ofSource_escape (s : String) :
    RendersTo (escape s) (joinLines s) ∧ (EndsAlike s → RendersTo (escape s) s) ∧
      (EndsAlike s → '@' ∉ s.toList → RendersTo s s) := by
  refine ⟨rendersTo_escape s, fun halike => ?_, fun halike hmarker => ?_⟩
  · have h := rendersTo_escape s
    rwa [joinLines_eq halike] at h
  · have h := rendersTo_escape s
    rwa [joinLines_eq halike, escape_of_not_mem hmarker] at h

/-- Escaped text that would begin a code block, and text without any `@`, on lines with carriage returns. -/
theorem Program.ofSource_escape_crlf :
    escape "@\x7b\r\n\x7d" = "@@\x7b\r\n\x7d" ∧ RendersTo "@@\x7b\r\n\x7d" "@\x7b\r\n\x7d" ∧
      RendersTo "\x7b\r\n\x7d" "\x7b\r\n\x7d" := by
  have hescape : escape "@\x7b\r\n\x7d" = "@@\x7b\r\n\x7d" := by decide
  have halike : EndsAlike "@\x7b\r\n\x7d" := by
    refine ⟨.inl fun front back h => ?_, by decide⟩
    rcases front with _ | ⟨_, _ | ⟨_, _ | ⟨_, _ | ⟨_, _ | ⟨_, front⟩⟩⟩⟩⟩ <;> simp_all [eq_comm]
  have halike' : EndsAlike "\x7b\r\n\x7d" := by
    refine ⟨.inl fun front back h => ?_, by decide⟩
    rcases front with _ | ⟨_, _ | ⟨_, _ | ⟨_, _ | ⟨_, front⟩⟩⟩⟩ <;> simp_all [eq_comm]
  exact ⟨hescape, hescape ▸ (ofSource_escape _).2.1 halike, (ofSource_escape _).2.2 halike' (by decide)⟩

end MailTemplate
