import MailTemplate.Proofs.Compile.Places
import MailTemplate.Proofs.Render.Places
import MailTemplate.Proofs.Renderer.Sessions

/-!
# Errors point into the template

Errors and warnings are on lines of the source that they are about, so that every error of a renderer comes with
the text of its line (`ofSource_diagnostics`). The lines are those between line feeds, and the text is without one
carriage return at its end.
-/

namespace MailTemplate

open Text

variable {source : String} {n : Nat}

/-! ## Lines of a source -/

theorem Text.splitLines_eq_splitOn (cs : List Char) : splitLines cs = cs.splitOn '\n' := by
  induction cs with
  | nil => rfl
  | cons c cs ih =>
      have hne : cs.splitOn '\n' ≠ [] := ih ▸ splitLines_ne_nil cs
      rw [splitLines, ih]
      simp only [List.splitOn_eq_splitOnP, List.splitOnP_cons_eq_if_modifyHead, beq_iff_eq] at hne ⊢
      split
      · rfl
      · obtain ⟨l, ls, hlines⟩ := List.exists_cons_of_ne_nil hne
        rw [hlines]
        rfl

/-- The line `n` of the source reads `text`, without a carriage return at its end. -/
def LineReads (source : String) (n : Nat) (text : String) : Prop :=
  0 < n ∧ ∃ line, (source.toList.splitOn '\n')[n - 1]? = some line ∧ text = String.ofList (dropReturn line)

theorem length_linesOf (source : String) : (linesOf source).length = (source.toList.splitOn '\n').length := by
  rw [linesOf, List.length_map, splitLines_eq_splitOn]

theorem TemplateError.lineText?_reads (hpos : 1 ≤ n) (hle : n ≤ (linesOf source).length) :
    ∃ text, lineText? source n = some text ∧ LineReads source n text := by
  obtain ⟨i, rfl⟩ := Nat.exists_eq_add_of_le' hpos
  have hlt : i < (source.toList.splitOn '\n').length := by
    rw [length_linesOf] at hle
    exact hle
  refine ⟨String.ofList (dropReturn (source.toList.splitOn '\n')[i]), ?_, Nat.succ_pos i, _,
    List.getElem?_eq_getElem hlt, rfl⟩
  simp only [lineText?, linesOf, splitLines_eq_splitOn, List.getElem?_map, List.getElem?_eq_getElem hlt,
    Option.map_some]

/-! ## Errors of a template -/

theorem lineNumbers_bounds {p : Program} (hp : Program.ofSource source = .ok p)
    (hn : n ∈ lineNumbersOf p.instructions) : 1 ≤ n ∧ n ≤ (linesOf source).length :=
  (ofSource_lineNumbers hp).2 n hn

/-- A template that is not rendered to its end has an error on one of its lines. -/
theorem renderSource_error_line {o : RenderOptions} {model : Value} {e : TemplateError}
    (h : renderSource o source model = .error e) :
    e = .unfinished ∨ ∃ n, e.line? = some n ∧ 1 ≤ n ∧ n ≤ (linesOf source).length := by
  rw [renderSource] at h
  cases hsource : Program.ofSource source with
  | error e' =>
      rw [hsource] at h
      cases h
      exact .inr ⟨e'.line, rfl, Program.ofSource_error_line hsource⟩
  | ok p =>
      rw [hsource] at h
      simp only [Program.render_eq_outcome] at h
      cases hhalt : p.outcome o (Program.roundsFor o) model with
      | ok r =>
          rw [hhalt] at h
          cases h
      | error halt =>
          rw [hhalt] at h
          cases h
          cases halt with
          | unfinished => exact .inl rfl
          | error e' =>
              have hline := (p.outcome_on o (Program.roundsFor o) model).1 e' hhalt
              exact .inr ⟨e'.line, rfl, lineNumbers_bounds hsource hline⟩

/-- The error comes with the text of its line, unless it is that there is no end. -/
theorem renderSource_sourceLine {o : RenderOptions} {model : Value} {e : TemplateError}
    (h : renderSource o source model = .error e) :
    (e = .unfinished ∧ e.sourceLine? source = none) ∨
      ∃ n text, e.line? = some n ∧ e.sourceLine? source = some text ∧ LineReads source n text := by
  rcases renderSource_error_line h with rfl | ⟨n, hline, hpos, hle⟩
  · exact .inl ⟨rfl, rfl⟩
  · obtain ⟨text, htext, hreads⟩ := TemplateError.lineText?_reads hpos hle
    exact .inr ⟨n, text, hline, by rw [TemplateError.sourceLine?, hline]; exact htext, hreads⟩

theorem RenderConfig.document_error {config : RenderConfig} {name : String} {css : Option String} {model : Value}
    {d : DocumentError} (h : config.document name source css model = .error d) :
    ∃ e, renderSource config.options source model = .error e ∧ d = .ofTemplate name source e := by
  rw [RenderConfig.document] at h
  cases hrender : renderSource config.options source model with
  | ok r =>
      rw [hrender] at h
      cases h
  | error e =>
      rw [hrender] at h
      cases h
      exact ⟨e, rfl, rfl⟩

/-- Errors and warnings point into the template: an error of compiling is on a line of the source; the lines of
instructions are lines of the source, in its order; an error of a render and its warnings are on lines of
instructions. So the error of a template always has a text of its line, and a renderer gives it, at any point of
a session. A render that does not come to an end has no line. -/
theorem ofSource_diagnostics (source : String) :
    (∀ e, Program.ofSource source = .error e → 1 ≤ e.line ∧ e.line ≤ (source.toList.splitOn '\n').length) ∧
    (∀ p, Program.ofSource source = .ok p →
      (lineNumbersOf p.instructions).Pairwise (· ≤ ·) ∧
      (∀ n ∈ lineNumbersOf p.instructions, 1 ≤ n ∧ n ≤ (source.toList.splitOn '\n').length) ∧
      ∀ o rounds model,
        (∀ e, p.outcome o rounds model = .error (.error e) → e.line ∈ lineNumbersOf p.instructions) ∧
        ∀ r, p.outcome o rounds model = .ok r → ∀ w ∈ r.warnings, w.line ∈ lineNumbersOf p.instructions) ∧
    (∀ o model e, renderSource o source model = .error e → e ≠ .unfinished →
      ∃ n text, e.line? = some n ∧ e.sourceLine? source = some text ∧ LineReads source n text) ∧
    ∀ config steps, Set.InjOn ProgramCache.key {s | s ∈ sourcesOf steps ∨ s = source} →
      ∀ name css model d, ((Renderer.after config steps).renderNamed name source css model).1 = .error d →
        d = .template name none .unfinished ∨
          ∃ e n text, e.line? = some n ∧ d = .template name (some text) e ∧ LineReads source n text := by
  rw [← length_linesOf]
  refine ⟨fun e he => Program.ofSource_error_line he, fun p hp => ?_, fun o model e he hends => ?_, ?_⟩
  · obtain ⟨hordered, hbounds⟩ := ofSource_lineNumbers hp
    exact ⟨hordered, hbounds, fun o rounds model => p.outcome_on o rounds model⟩
  · exact (renderSource_sourceLine he).resolve_left fun h => hends h.1
  · intro config steps hkey name css model d hd
    rw [Renderer.after_renderNamed hkey] at hd
    obtain ⟨e, he, rfl⟩ := RenderConfig.document_error hd
    rcases renderSource_sourceLine he with ⟨rfl, _⟩ | ⟨n, text, hline, htext, hreads⟩
    · exact .inl rfl
    · exact .inr ⟨e, n, text, hline, by rw [DocumentError.ofTemplate, htext], hreads⟩

/-- A member that is missing in the second of three lines. -/
theorem ofSource_diagnostics_missing :
    ∃ p e text, Program.ofSource "a\r\n@m\r\nb" = .ok p ∧ p.outcome ⟨false, none⟩ 1 .null = .error (.error e) ∧
      e.line ∈ lineNumbersOf p.instructions ∧ lineNumbersOf p.instructions = [1, 1, 2, 2, 3] ∧
      ((Renderer.after .default []).renderNamed "t" "a\r\n@m\r\nb" none .null).1 =
        .error (.template "t" (some text) (.run e)) ∧ LineReads "a\r\n@m\r\nb" 2 text := by
  have hlines : linesOf "a\r\n@m\r\nb" = [['a'], ['@', 'm'], ['b']] := by decide
  have ht : Template.ofSource "a\r\n@m\r\nb" = .ok ⟨[.text 1 [.literal "a"] none,
      .text 2 [.reference ["m"]] none, .text 3 [.literal "b"] none], 3, .crlf⟩ := by
    refine Reader.ofSource_eq_ok_iff.2 ⟨0, ?_, by decide, by decide⟩
    rw [hlines]
    cbv
  have hp : Program.ofSource "a\r\n@m\r\nb" =
      .ok ⟨[.literal 1 "a", .newline 1, .value 2 (.path ["m"]), .newline 2, .literal 3 "b"], .crlf⟩ := by
    refine bind_eq_ok_iff.2 ⟨_, ht, ?_⟩
    rw [Line.compile_eq]
    simp only [Line.compileAll_text]
    rfl
  have hkey : Set.InjOn ProgramCache.key {s | s ∈ sourcesOf [] ∨ s = "a\r\n@m\r\nb"} := by
    rintro s (hs | rfl) s' (hs' | rfl) _ <;> first | rfl | cases hs | cases hs'
  have hd : ((Renderer.after .default []).renderNamed "t" "a\r\n@m\r\nb" none .null).1 =
      .error (.template "t" (some "@m") (.run ⟨2, .missing (.names ["m"])⟩)) := by
    rw [Renderer.after_renderNamed hkey, RenderConfig.document, renderSource, hp]
    cbv
  obtain ⟨_, hcompiled, _, hrendered⟩ := ofSource_diagnostics "a\r\n@m\r\nb"
  have hrun := ((hcompiled _ hp).2.2 ⟨false, none⟩ 1 .null).1 ⟨2, .missing (.names ["m"])⟩ (by cbv)
  rcases hrendered .default [] hkey "t" none .null _ hd with h | ⟨e, n, text, hline, h, hreads⟩
  · cases h
  · cases h
    cases hline
    exact ⟨_, _, _, hp, by cbv, hrun, rfl, hd, hreads⟩

/-- The line `n` of the source reads `text` in front of its line feed, or of its carriage return and line feed. -/
def LineBeforeEnding (source : String) (n : Nat) (text : String) : Prop :=
  0 < n ∧ ∃ line, (source.toList.splitOn '\n')[n - 1]? = some line ∧
    text = String.ofList (if n < (source.toList.splitOn '\n').length then dropReturn line else line)

/-- A carriage return at the end of a source is no part of the text that an error shows, although no line feed
stands behind it. -/
theorem renderNamed_lone_return :
    ¬ ∀ name source css model e n text,
      ((Renderer.new .default).renderNamed name source css model).1 = .error (.template name (some text) e) →
        e.line? = some n → LineBeforeEnding source n text := by
  intro h
  have hd : ((Renderer.new .default).renderNamed "t" "@m\r" none .null).1 =
      .error (.template "t" (some "@m") (.run ⟨1, .missing (.names ["m"])⟩)) := by
    have hp : Program.ofSource "@m\r" = .ok ⟨[.value 1 (.path ["m"])], .lf⟩ := by cbv
    rw [Renderer.renderNamed_new, RenderConfig.document, renderSource, hp]
    cbv
  obtain ⟨_, line, hline, htext⟩ := h _ _ _ _ _ _ _ hd rfl
  have hlines : "@m\r".toList.splitOn '\n' = ["@m\r".toList] := by decide
  rw [hlines] at hline htext
  cases hline
  exact absurd htext (by decide)

end MailTemplate
