import MailTemplate.Proofs.CommandLine.Loading
import MailTemplate.Proofs.Files.Tree

/-!
# All or nothing

A run of `render` either makes the whole document and leaves it in one place, or changes no file and prints nothing
(`render_all_or_nothing`).
-/

namespace MailTemplate

open Text

namespace CommandLine

variable {t t' : FileTree} {path text : String} {a : RenderArgs} {colour : Bool}

/-! ## Documents -/

/-- The settings in a file; without one they are the default ones. -/
inductive Configures (t : FileTree) : Option String → RenderConfig → Prop
  | default : Configures t none .default
  | file {path s config} : t.read path = .ok s → RenderConfig.ofYaml? s = some config →
      Configures t (some path) config

/-- The model in a file; without one it is an object without members. -/
inductive Supplies (t : FileTree) : Option String → Value → Prop
  | empty : Supplies t none (.ofJson [] (.object []))
  | file {path s j} : t.read path = .ok s → Json.ofText? s = some j → Supplies t (some path) (.ofJson [] j)

/-- The program in the template comes to `r` with the model, under the settings, which are strict if either the
file or the arguments say so. -/
inductive Evaluates (t : FileTree) (path : String) (a : RenderArgs) : RenderConfig → Except Halt Rendered → Prop
  | mk {config model source p r} : Configures t a.config config → Supplies t a.model model →
      t.read path = .ok source → Program.ofSource source = .ok p →
      p.render ⟨config.strict || a.strict, config.maxIterations⟩ model = r → Evaluates t path a config r

/-- The whole document: with the style sheet in place of the placeholder if one is given, and as it is rendered
otherwise. -/
inductive Documents (t : FileTree) (path : String) (a : RenderArgs) : String → Prop
  | plain {config r} : a.style = none → Evaluates t path a config (.ok r) → Documents t path a r.text
  | styled {config r file css} : a.style = some file → t.read file = .ok css →
      Evaluates t path a config (.ok r) →
      Documents t path a (Style.inject r.text (Style.wrap css) config.placeholder)

/-- Something stands in the way of the document. -/
inductive Prevented (t : FileTree) (path : String) (a : RenderArgs) : Prop
  | unreadable {file e} : file = path ∨ a.style = some file ∨ a.model = some file ∨ a.config = some file →
      t.read file = .error e → Prevented t path a
  | badConfig {file s} : a.config = some file → t.read file = .ok s → RenderConfig.ofYaml? s = none →
      Prevented t path a
  | badJson {file s} : a.model = some file → t.read file = .ok s → Json.ofText? s = none → Prevented t path a
  | uncompiled {source e} : t.read path = .ok source → Program.ofSource source = .error e → Prevented t path a
  | unfinished {config halt} : Evaluates t path a config (.error halt) → Prevented t path a

/-- There is no document, or the file that it shall go to cannot be written. -/
inductive Refused (t : FileTree) (path : String) (a : RenderArgs) : Prop
  | prevented : Prevented t path a → Refused t path a
  | unwritable {text file e} : Documents t path a text → a.out = some file → t.write file text = .error e →
      Refused t path a

/-- The text is in one place: printed, in the file that is named, or shown on the stream that is named. Another
device takes it and keeps nothing. -/
inductive Delivered (t : FileTree) (text : String) : Option String → String → FileTree → Prop
  | printed : Delivered t text none text t
  | kept {file l t'} : t.target file = .ok l → FileTree.devices.lookup l = none → t'.read file = .ok text →
      t'.file? l = some text.toUTF8 → (∀ k ≠ l, t'.file? k = t.file? k) → t'.shown = t.shown →
      Delivered t text (some file) "" t'
  | shown {file l s t'} : t.target file = .ok l → FileTree.devices.lookup l = some (.stream s) →
      t'.files = t.files → t'.shownOn s = t.shownOn s ++ text → (∀ s' ≠ s, t'.shownOn s' = t.shownOn s') →
      Delivered t text (some file) "" t'
  | device {file l d} : t.target file = .ok l → FileTree.devices.lookup l = some d → (∀ s, d ≠ .stream s) →
      t.write file text = .ok t → Delivered t text (some file) "" t

/-! ## What is loaded -/

theorem textIn_eq_ok_iff {task s : String} : textIn t task path = .ok s ↔ t.read path = .ok s :=
  mapError_eq_ok_iff

theorem configIn_eq_ok_iff {file : Option String} {config : RenderConfig} :
    configIn t file = .ok config ↔ Configures t file config := by
  constructor
  · intro h
    cases file with
    | none =>
        cases h
        exact .default
    | some file =>
        rw [configIn, mapError_eq_ok_iff, configAt] at h
        split at h
        · cases h
        · rename_i s hs
          split at h
          · rename_i hconfig
            cases h
            exact .file hs hconfig
          · cases h
  · rintro (_ | ⟨hs, hconfig⟩)
    · rfl
    · rw [configIn, configAt, hs]
      simp only [hconfig]
      rfl

theorem modelIn_eq_ok_iff {file : Option String} {model : Value} :
    modelIn t file = .ok model ↔ Supplies t file model := by
  constructor
  · intro h
    cases file with
    | none =>
        cases h
        exact .empty
    | some file =>
        obtain ⟨s, hs, h⟩ := bind_eq_ok_iff.1 h
        split at h
        · rename_i hj
          cases h
          exact .file (textIn_eq_ok_iff.1 hs) hj
        · cases h
  · rintro (_ | ⟨hs, hj⟩)
    · rfl
    · refine bind_eq_ok_iff.2 ⟨_, textIn_eq_ok_iff.2 hs, ?_⟩
      rw [hj]
      rfl

theorem styleIn_eq_ok_iff {file css : Option String} :
    styleIn t file = .ok css ↔
      (file = none ∧ css = none) ∨ ∃ path s, file = some path ∧ css = some s ∧ t.read path = .ok s := by
  cases file with
  | none => simp [styleIn, eq_comm]
  | some path =>
      rw [styleIn, bind_eq_ok_iff]
      simp only [textIn_eq_ok_iff, pure, Except.pure, Except.ok.injEq]
      constructor
      · rintro ⟨s, hs, rfl⟩
        exact .inr ⟨path, s, rfl, rfl, hs⟩
      · rintro (⟨⟨⟩, _⟩ | ⟨_, s, ⟨⟩, rfl, hs⟩)
        exact ⟨s, hs, rfl⟩

theorem document_eq_ok_iff {config : RenderConfig} {name source : String} {css : Option String} {model : Value}
    {r : Rendered} :
    config.document name source css model = .ok r ↔ ∃ p r₀, Program.ofSource source = .ok p ∧
      p.render config.options model = .ok r₀ ∧ Renderer.withStyle config css r₀ = r := by
  rw [RenderConfig.document, map_eq_ok_iff]
  simp only [mapError_eq_ok_iff, renderSource]
  cases Program.ofSource source with
  | error e => simp
  | ok p => simp [mapError_eq_ok_iff]

/-- A document is made of what all its parts are. -/
theorem documentIn_eq_ok_iff {r : Rendered} :
    documentIn t path a = .ok r ↔ ∃ config css r₀, Evaluates t path a config (.ok r₀) ∧
      styleIn t a.style = .ok css ∧ Renderer.withStyle config css r₀ = r := by
  simp only [documentIn, bind_eq_ok_iff, configIn_eq_ok_iff, modelIn_eq_ok_iff, textIn_eq_ok_iff,
    mapError_eq_ok_iff, document_eq_ok_iff]
  constructor
  · rintro ⟨config, hconfig, model, hmodel, source, hsource, css, hcss, p, r₀, hp, hr, rfl⟩
    refine ⟨config, css, r₀, .mk hconfig hmodel hsource hp hr, hcss, ?_⟩
    cases css <;> rfl
  · rintro ⟨config, css, r₀, ⟨hconfig, hmodel, hsource, hp, hr⟩, hcss, rfl⟩
    refine ⟨config, hconfig, _, hmodel, _, hsource, css, hcss, _, r₀, hp, hr, ?_⟩
    cases css <;> rfl

theorem documents_of_ok {r : Rendered} (h : documentIn t path a = .ok r) : Documents t path a r.text := by
  obtain ⟨config, css, r₀, hevaluates, hcss, rfl⟩ := documentIn_eq_ok_iff.1 h
  rcases styleIn_eq_ok_iff.1 hcss with ⟨hstyle, rfl⟩ | ⟨file, s, hstyle, rfl, hs⟩
  · exact .plain hstyle hevaluates
  · exact .styled hstyle hs hevaluates

theorem Documents.exists_ok (h : Documents t path a text) : ∃ r, documentIn t path a = .ok r ∧ r.text = text := by
  cases h with
  | plain hstyle hevaluates =>
      have hcss : styleIn t a.style = .ok none := styleIn_eq_ok_iff.2 (.inl ⟨hstyle, rfl⟩)
      exact ⟨_, documentIn_eq_ok_iff.2 ⟨_, none, _, hevaluates, hcss, rfl⟩, rfl⟩
  | @styled config _ file css hstyle hread hevaluates =>
      have hcss : styleIn t a.style = .ok (some css) := styleIn_eq_ok_iff.2 (.inr ⟨file, css, hstyle, rfl, hread⟩)
      exact ⟨_, documentIn_eq_ok_iff.2 ⟨_, some css, _, hevaluates, hcss, rfl⟩, rfl⟩

theorem Evaluates.unique {config config' : RenderConfig} {r r' : Except Halt Rendered}
    (h : Evaluates t path a config r) (h' : Evaluates t path a config' r') : r = r' := by
  obtain ⟨hconfig, hmodel, hsource, hp, rfl⟩ := h
  obtain ⟨hconfig', hmodel', hsource', hp', rfl⟩ := h'
  cases (configIn_eq_ok_iff.2 hconfig).symm.trans (configIn_eq_ok_iff.2 hconfig')
  cases (modelIn_eq_ok_iff.2 hmodel).symm.trans (modelIn_eq_ok_iff.2 hmodel')
  cases hsource.symm.trans hsource'
  cases hp.symm.trans hp'
  rfl

/-- Where something stands in the way, there is no document. -/
theorem Prevented.ne_ok (h : Prevented t path a) (r : Rendered) : documentIn t path a ≠ .ok r := by
  intro hok
  obtain ⟨config, css, r₀, hevaluates, hcss, _⟩ := documentIn_eq_ok_iff.1 hok
  obtain ⟨hconfig, hmodel, hsource, hp, hr⟩ := id hevaluates
  cases h with
  | unreadable hfile he =>
      rcases hfile with rfl | hstyle | hmodelFile | hconfigFile
      · cases he.symm.trans hsource
      · rcases styleIn_eq_ok_iff.1 hcss with ⟨hnone, _⟩ | ⟨file, s, hsome, _, hs⟩
        · cases hstyle.symm.trans hnone
        · cases hstyle.symm.trans hsome
          cases he.symm.trans hs
      · rw [hmodelFile] at hmodel
        obtain _ | ⟨hs, _⟩ := hmodel
        cases he.symm.trans hs
      · rw [hconfigFile] at hconfig
        obtain _ | ⟨hs, _⟩ := hconfig
        cases he.symm.trans hs
  | badConfig hfile hs hbad =>
      rw [hfile] at hconfig
      obtain _ | ⟨hs', hgood⟩ := hconfig
      cases hs.symm.trans hs'
      cases hbad.symm.trans hgood
  | badJson hfile hs hbad =>
      rw [hfile] at hmodel
      obtain _ | ⟨hs', hgood⟩ := hmodel
      cases hs.symm.trans hs'
      cases hbad.symm.trans hgood
  | uncompiled hs he =>
      cases hs.symm.trans hsource
      cases he.symm.trans hp
  | unfinished hhalts => cases hhalts.unique hevaluates

/-! ### Failures -/

section Failures

variable {f : Failure}

theorem textIn_error {task : String} (h : textIn t task path = .error f) : ∃ e, t.read path = .error e := by
  obtain ⟨e, he, _⟩ := mapError_eq_error_iff.1 h
  exact ⟨e, he⟩

theorem prevented_of_configIn (h : configIn t a.config = .error f) : Prevented t path a := by
  cases hfile : a.config with
  | none =>
      rw [hfile] at h
      cases h
  | some file =>
      rw [hfile, configIn, mapError_eq_error_iff, configAt] at h
      obtain ⟨d, h, _⟩ := h
      cases hs : t.read file with
      | error e => exact .unreadable (.inr (.inr (.inr hfile))) hs
      | ok s =>
          rw [hs] at h
          cases hconfig : RenderConfig.ofYaml? s with
          | none => exact .badConfig hfile hs hconfig
          | some config =>
              simp only [hconfig] at h
              cases h

theorem prevented_of_modelIn (h : modelIn t a.model = .error f) : Prevented t path a := by
  cases hfile : a.model with
  | none =>
      rw [hfile] at h
      cases h
  | some file =>
      cases hs : t.read file with
      | error e => exact .unreadable (.inr (.inr (.inl hfile))) hs
      | ok s =>
          rw [hfile, modelIn, textIn_eq_ok_iff.2 hs] at h
          cases hj : Json.ofText? s with
          | none => exact .badJson hfile hs hj
          | some j =>
              simp only [bind, Except.bind, hj] at h
              cases h

theorem prevented_of_styleIn (h : styleIn t a.style = .error f) : Prevented t path a := by
  cases hfile : a.style with
  | none =>
      rw [hfile] at h
      cases h
  | some file =>
      cases hs : t.read file with
      | error e => exact .unreadable (.inr (.inl hfile)) hs
      | ok s =>
          rw [hfile, styleIn, textIn_eq_ok_iff.2 hs] at h
          cases h

/-- Where there is no document, something stands in the way. -/
theorem prevented_of_error (h : documentIn t path a = .error f) : Prevented t path a := by
  cases hconfig : configIn t a.config with
  | error f => exact prevented_of_configIn hconfig
  | ok config =>
    cases hmodel : modelIn t a.model with
    | error f => exact prevented_of_modelIn hmodel
    | ok model =>
      cases hsource : textIn t "read template" path with
      | error f =>
          obtain ⟨e, he⟩ := textIn_error hsource
          exact .unreadable (.inl rfl) he
      | ok source =>
        cases hcss : styleIn t a.style with
        | error f => exact prevented_of_styleIn hcss
        | ok css =>
          cases hp : Program.ofSource source with
          | error e => exact .uncompiled (textIn_eq_ok_iff.1 hsource) hp
          | ok p =>
            have hevaluates := Evaluates.mk (configIn_eq_ok_iff.1 hconfig) (modelIn_eq_ok_iff.1 hmodel)
              (textIn_eq_ok_iff.1 hsource) hp rfl
            cases hr : p.render ⟨config.strict || a.strict, config.maxIterations⟩ model with
            | error halt => exact .unfinished (hr ▸ hevaluates)
            | ok r =>
                rw [hr] at hevaluates
                cases h.symm.trans (documentIn_eq_ok_iff.2 ⟨config, css, r, hevaluates, hcss, rfl⟩)

end Failures

/-! ## Runs -/

theorem run_write (t : FileTree) (file text : String) :
    (FileTree.access.write file text).run t =
      match t.write file text with
      | .ok t' => (.ok (), t')
      | .error e => (.error e, t) := by
  change (match t.write file text with
    | .ok t' => set t' >>= fun _ => pure (Except.ok ())
    | .error e => pure (Except.error e) : StateM FileTree (Except FileError Unit)).run t = _
  cases t.write file text <;> rfl

theorem delivered_of_write {file : String} (h : t.write file text = .ok t') :
    Delivered t text (some file) "" t' := by
  obtain ⟨l, htarget, hends⟩ := FileTree.write_eq_ok h
  rcases hends with ⟨hnone, hread, hfile, hothers, hshown⟩ | ⟨s, hstream, rfl⟩ | ⟨d, hdevice, hd, rfl⟩
  · exact .kept htarget hnone hread hfile hothers hshown
  · refine .shown htarget hstream rfl ?_ fun s' hs' => ?_
    · rw [FileTree.shownOn_write, if_pos rfl]
    · rw [FileTree.shownOn_write, if_neg hs']
  · exact .device htarget hdevice hd h

/-- With a document, only its file can be what stands in the way. -/
theorem Refused.exists_error {r : Rendered} (h : Refused t path a) (hok : documentIn t path a = .ok r) :
    ∃ file e, a.out = some file ∧ t.write file r.text = .error e := by
  cases h with
  | prevented hprevented => exact absurd hok (hprevented.ne_ok r)
  | @unwritable text file e hdocument hout he =>
      obtain ⟨r', hr', rfl⟩ := hdocument.exists_ok
      cases hok.symm.trans hr'
      exact ⟨file, e, hout, he⟩

/-- A run of `render` refuses the document and leaves nothing, or delivers all of it. -/
theorem runRender_run (t : FileTree) (colour : Bool) (path : String) (a : RenderArgs) :
    ∃ o t', (runRender FileTree.access colour path a).run t = (o, t') ∧
      ((o.status = 1 ∧ Refused t path a ∧ o.stdout = "" ∧ t' = t) ∨
        (o.status = 0 ∧ ¬ Refused t path a ∧
          ∃ text, Documents t path a text ∧ Delivered t text a.out o.stdout t')) := by
  have hdocument := gives_documentIn t path a
  cases hd : documentIn t path a with
  | error f =>
      rw [hd] at hdocument
      refine ⟨⟨1, "", f.report colour⟩, t, ?_, .inl ⟨rfl, .prevented (prevented_of_error hd), rfl, rfl⟩⟩
      rw [runRender, run_bind_eq hdocument]
      rfl
  | ok r =>
      rw [hd] at hdocument
      have hr : Documents t path a r.text := documents_of_ok hd
      rw [runRender, run_bind_eq hdocument]
      dsimp only
      cases hout : a.out with
      | none =>
          refine ⟨_, t, rfl, .inr ⟨rfl, fun hrefused => ?_, r.text, hr, .printed⟩⟩
          obtain ⟨file, _, hfile, _⟩ := hrefused.exists_error hd
          cases hout.symm.trans hfile
      | some file =>
          dsimp only
          have hrun := run_write t file r.text
          cases hwrite : t.write file r.text with
          | error e =>
              rw [hwrite] at hrun
              rw [run_bind_eq hrun]
              exact ⟨_, t, rfl, .inl ⟨rfl, .unwritable hr hout hwrite, rfl, rfl⟩⟩
          | ok t' =>
              rw [hwrite] at hrun
              rw [run_bind_eq hrun]
              refine ⟨_, t', rfl, .inr ⟨rfl, fun hrefused => ?_, r.text, hr, delivered_of_write hwrite⟩⟩
              obtain ⟨file', e, hfile, he⟩ := hrefused.exists_error hd
              cases hout.symm.trans hfile
              cases hwrite.symm.trans he

/-! ## Arguments -/

def PathOption.name : PathOption → String
  | style => "style"
  | model => "model"
  | config => "config"
  | out => "out"

/-- An option with its path as one argument; nothing if there is no path. -/
def PathOption.arguments (o : PathOption) (path : Option String) : List String :=
  path.toList.map fun path => "--" ++ o.name ++ "=" ++ path

def RenderArgs.arguments (a : RenderArgs) (path : String) : List String :=
  "render" :: (PathOption.style.arguments a.style ++ (PathOption.model.arguments a.model ++
    (PathOption.config.arguments a.config ++ (PathOption.out.arguments a.out ++
      ((if a.strict then ["--strict"] else []) ++ ["--", path])))))

theorem shape_pathOption (o : PathOption) (path : String) :
    Shape.of ("--" ++ o.name ++ "=" ++ path) = .long o.name (some path) := by
  cases o <;> simp [Shape.of, PathOption.name]

theorem readRender_arguments {o : PathOption} {file : Option String} {a : RenderArgs} (a' : RenderArgs)
    (args : List String)
    (hnone : file = none → a' = a) (hsome : ∀ p, file = some p → a.setPath? o p = some a') :
    readRender none a (o.arguments file ++ args) = readRender none a' args := by
  cases file with
  | none =>
      cases hnone rfl
      rfl
  | some p =>
      have hset := hsome p rfl
      change readRender none a (("--" ++ o.name ++ "=" ++ p) :: args) = _
      rw [readRender.eq_def]
      simp only [shape_pathOption]
      cases o <;> simp [PathOption.name, PathOption.ofLong?, hset]

theorem readRender_separator {path : String} {a : RenderArgs} (hpath : path ≠ "") (htemplate : a.template = none) :
    readRender none a ["--", path] = .render path { a with template := some path } := by
  have hempty : path.isEmpty = false := by simpa using hpath
  change renderPlain a [path] = _
  simp [renderPlain, RenderArgs.setTemplate?, htemplate, hempty]

/-- Every combination of options can be asked for. -/
theorem ofArgs_arguments {path : String} {a : RenderArgs} (hpath : path ≠ "")
    (htemplate : a.template = some path) (h : ∀ file, some file ∈ [a.style, a.model, a.config, a.out] → file ≠ "") :
    Request.ofArgs (a.arguments path) = .render path a := by
  obtain ⟨_, style, model, config, out, strict⟩ := a
  cases htemplate
  have hempty : ∀ file, some file ∈ [style, model, config, out] → file.isEmpty = false := by
    intro file hfile
    simpa using h file hfile
  change readRender none .empty _ = _
  dsimp only
  rw [readRender_arguments ⟨none, style, none, none, none, false⟩,
    readRender_arguments ⟨none, style, model, none, none, false⟩,
    readRender_arguments ⟨none, style, model, config, none, false⟩,
    readRender_arguments ⟨none, style, model, config, out, false⟩]
  · cases strict with
    | false => exact readRender_separator hpath rfl
    | true =>
        change readRender none ⟨none, style, model, config, out, true⟩ ["--", path] = _
        exact readRender_separator hpath rfl
  -- Each option is there or not.
  all_goals first
    | rintro rfl
      rfl
    | rintro file rfl
      simp [RenderArgs.setPath?, RenderArgs.empty, hempty]

/-! ## All or nothing -/

/-- Whatever the files and the arguments are, `render` ends well or with status one. It ends with status one if and
only if a file cannot be read, the settings or the model are no such, the template does not compile or fails, or
the document cannot be written; then it prints nothing and every file is as it was. If it ends well, the whole
document is in one place. Every combination of options can be asked for. -/
theorem render_all_or_nothing :
    (∀ (t : FileTree) (colour : Bool) args path a, Request.ofArgs args = .render path a →
      ∃ o t', (run FileTree.access colour args).run t = (o, t') ∧ (o.status = 0 ∨ o.status = 1) ∧
        (o.status = 1 ↔ Refused t path a) ∧ (o.status = 1 → o.stdout = "" ∧ t' = t) ∧
        (o.status = 0 → ∃ text, Documents t path a text ∧ Delivered t text a.out o.stdout t')) ∧
    ∀ (path : String) (a : RenderArgs), path ≠ "" → a.template = some path →
      (∀ file, some file ∈ [a.style, a.model, a.config, a.out] → file ≠ "") →
      Request.ofArgs (a.arguments path) = .render path a := by
  refine ⟨fun t colour args path a hargs => ?_, fun path a => ofArgs_arguments⟩
  obtain ⟨o, t', hrun, hends⟩ := runRender_run t colour path a
  refine ⟨o, t', ?_, ?_⟩
  · rw [run, hargs]
    exact hrun
  · rcases hends with ⟨hstatus, hrefused, hnothing⟩ | ⟨hstatus, hnot, hall⟩
    · have hne : o.status ≠ 0 := hstatus ▸ Nat.one_ne_zero
      exact ⟨.inr hstatus, iff_of_true hstatus hrefused, fun _ => hnothing, fun hzero => absurd hzero hne⟩
    · have hne : o.status ≠ 1 := hstatus ▸ Nat.zero_ne_one
      exact ⟨.inl hstatus, iff_of_false hne hnot, fun hone => absurd hone hne, fun _ => hall⟩

/-- A template with a placeholder, a style sheet, and an older document. -/
def styledFiles : FileTree where
  files := [(["", "", "a"], "x<style></style>".toUTF8), (["", "", "s"], "p".toUTF8), (["", "", "o"], "old".toUTF8)]

def styledArgs : RenderArgs := ⟨some "a", some "s", none, none, some "o", false⟩

theorem documents_styled : Documents styledFiles "a" styledArgs "x<style>p</style>\n" := by
  have hlines : linesOf "x<style></style>" = ["x<style></style>".toList] := by decide
  have ht : Template.ofSource "x<style></style>" = .ok ⟨[.text 1 [.literal "x<style></style>"] none], 1, .lf⟩ := by
    refine Reader.ofSource_eq_ok_iff.2 ⟨0, ?_, by decide, by decide⟩
    rw [hlines]
    cbv
  have hp : Program.ofSource "x<style></style>" = .ok ⟨[.literal 1 "x<style></style>"], .lf⟩ :=
    bind_eq_ok_iff.2 ⟨_, ht, by cbv⟩
  have ha : styledFiles.read "a" = .ok "x<style></style>" := by cbv
  have hs : styledFiles.read "s" = .ok "p" := by cbv
  have hinject : Style.inject "x<style></style>" (Style.wrap "p") Style.defaultPlaceholder =
      "x<style>p</style>\n" := by cbv
  have hevaluates : Evaluates styledFiles "a" styledArgs .default (.ok ⟨"x<style></style>", []⟩) :=
    .mk .default .empty ha hp rfl
  rw [← hinject]
  exact .styled rfl hs hevaluates

/-- The older document gives way to the whole new one; without the template it stays as it is. -/
theorem render_all_or_nothing_styled :
    (Documents styledFiles "a" styledArgs "x<style>p</style>\n" ∧
      ∃ o t', (run FileTree.access false ["render", "--style=s", "-o", "o", "a"]).run styledFiles = (o, t') ∧
        o.status = 0 ∧ ∃ text, Documents styledFiles "a" styledArgs text ∧
          Delivered styledFiles text (some "o") o.stdout t') ∧
    ∃ o, (run FileTree.access false ["render", "-o", "o", "b"]).run styledFiles = (o, styledFiles) ∧
      o.status = 1 ∧ o.stdout = "" := by
  obtain ⟨hruns, _⟩ := render_all_or_nothing
  refine ⟨⟨documents_styled, ?_⟩, ?_⟩
  · obtain ⟨o, t', hrun, hstatus, hrefused, _, hdelivered⟩ :=
      hruns styledFiles false ["render", "--style=s", "-o", "o", "a"] "a" styledArgs (by decide)
    obtain ⟨r, hr, htext⟩ := documents_styled.exists_ok
    have hzero : o.status = 0 := by
      refine hstatus.resolve_right fun hone => ?_
      obtain ⟨file, e, ⟨⟩, he⟩ := (hrefused.1 hone).exists_error hr
      have hwrites : (styledFiles.write "o" "x<style>p</style>\n").isOk = true := by cbv
      rw [← htext, he] at hwrites
      cases hwrites
    exact ⟨o, t', hrun, hzero, hdelivered hzero⟩
  · obtain ⟨o, t', hrun, _, hrefused, hnothing, _⟩ :=
      hruns styledFiles false ["render", "-o", "o", "b"] "b" ⟨some "b", none, none, none, some "o", false⟩
        (by decide)
    have hmissing : styledFiles.read "b" = .error .notFound := by cbv
    have hone : o.status = 1 := hrefused.2 (.prevented (.unreadable (.inl rfl) hmissing))
    obtain ⟨hstdout, rfl⟩ := hnothing hone
    exact ⟨o, hrun, hone, hstdout⟩

end CommandLine

end MailTemplate
