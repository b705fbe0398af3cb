import MailTemplate.Proofs.Renderer.Cache
import MailTemplate.Proofs.Results
import MailTemplate.Renderer

/-!
# Sessions of a renderer

A renderer keeps the programs of the sources it was given, and can be told to forget them. That it keeps them
makes no difference to what it gives, as long as no two of the sources have the same key
(`Renderer.session_transparent`).
-/

namespace MailTemplate

/-! ## Rendering without a cache -/

/-- What rendering a source under a name comes to. -/
def RenderConfig.document (config : RenderConfig) (name source : String) (css : Option String) (model : Value) :
    Except DocumentError Rendered :=
  ((renderSource config.options source model).mapError (.ofTemplate name source)).map
    (Renderer.withStyle config css)

theorem Renderer.renderNamed_eq {r : Renderer} {source : String}
    (h : (r.cache.getOrCompile source).1.map Compiled.program = Program.ofSource source) (name : String)
    (css : Option String) (model : Value) :
    (r.renderNamed name source css model).1 = r.config.document name source css model := by
  rw [renderNamed, RenderConfig.document, renderSource, ← h]
  rcases r.cache.getOrCompile source with ⟨e | compiled, cache⟩
  · rfl
  · simp only [Except.map]
    cases compiled.program.render r.config.options model <;> rfl

theorem Renderer.renderNamed_new (config : RenderConfig) (name source : String) (css : Option String)
    (model : Value) :
    ((new config).renderNamed name source css model).1 = config.document name source css model := by
  refine renderNamed_eq (r := new config) ?_ name css model
  exact (ProgramCache.holds_empty.getOrCompile fun _ h => absurd h List.not_mem_nil).1

/-! ## Steps -/

/-- What can be asked of a renderer. -/
inductive SessionStep where
  | compile (source : String)
  | renderNamed (name source : String) (css : Option String) (model : Value)
  | render (source : String) (css : Option String) (model : Value)
  | clear

namespace SessionStep

/-- The source that a step looks up. -/
def source? : SessionStep → Option String
  | compile source | renderNamed _ source _ _ | render source _ _ => some source
  | clear => none

/-- The renderer behind a step. -/
def perform (r : Renderer) : SessionStep → Renderer
  | compile source => { r with cache := (r.cache.getOrCompile source).2 }
  | renderNamed name source css model => (r.renderNamed name source css model).2
  | render source css model => (r.render source css model).2
  | clear => { r with cache := r.cache.clear }

theorem eq_clear {step : SessionStep} (h : step.source? = none) : step = clear := by
  cases step with
  | clear => rfl
  | compile | renderNamed | render => cases h

theorem perform_of_source {step : SessionStep} {source : String} (h : step.source? = some source)
    (r : Renderer) : step.perform r = { r with cache := (r.cache.getOrCompile source).2 } := by
  have hrender : ∀ name css model, (r.renderNamed name source css model).2 =
      { r with cache := (r.cache.getOrCompile source).2 } := by
    intro name css model
    rw [Renderer.renderNamed]
    rcases r.cache.getOrCompile source with ⟨_ | _, cache⟩ <;> rfl
  cases step with
  | clear => cases h
  | compile =>
      cases h
      rfl
  | renderNamed name s css model =>
      cases h
      exact hrender name css model
  | render s css model =>
      cases h
      exact hrender inlineName css model

end SessionStep

namespace Renderer

open ProgramCache SessionStep

/-- The renderer behind some steps. -/
def perform (r : Renderer) (steps : List SessionStep) : Renderer := steps.foldl SessionStep.perform r

def after (config : RenderConfig) (steps : List SessionStep) : Renderer := (new config).perform steps

variable {r : Renderer} {config : RenderConfig} {steps front mid back : List SessionStep} {step : SessionStep}
  {source : String} {compiled compiled' : Compiled} {n : Nat}

theorem perform_append (r : Renderer) (front back : List SessionStep) :
    r.perform (front ++ back) = (r.perform front).perform back := List.foldl_append

theorem perform_concat (r : Renderer) (steps : List SessionStep) (step : SessionStep) :
    r.perform (steps ++ [step]) = step.perform (r.perform steps) := by
  rw [perform_append]
  rfl

/-- What every lookup keeps, and clearing too, is kept over a session. -/
theorem perform_keeps {P : ProgramCache → Prop} (hlookup : ∀ cache source, P cache → P (cache.getOrCompile source).2)
    (hclear : ∀ cache, P cache → P cache.clear) (h : P r.cache) : P (r.perform steps).cache := by
  induction steps generalizing r with
  | nil => exact h
  | cons step steps ih =>
      refine ih ?_
      cases hstep : step.source? with
      | none =>
          rw [eq_clear hstep]
          exact hclear _ h
      | some source =>
          rw [perform_of_source hstep]
          exact hlookup _ _ h

/-- What every lookup keeps is kept as long as the cache is not cleared. -/
theorem perform_keeps_lookups {P : ProgramCache → Prop}
    (hlookup : ∀ cache source, P cache → P (cache.getOrCompile source).2)
    (hsteps : ∀ step ∈ steps, step ≠ .clear) (h : P r.cache) : P (r.perform steps).cache := by
  induction steps generalizing r with
  | nil => exact h
  | cons step steps ih =>
      obtain ⟨hstep, hmore⟩ := List.forall_mem_cons.1 hsteps
      refine ih hmore ?_
      obtain ⟨source, hsource⟩ := Option.ne_none_iff_exists'.1 fun hnone => hstep (eq_clear hnone)
      rw [perform_of_source hsource]
      exact hlookup _ _ h

theorem perform_config : (r.perform steps).config = r.config := by
  induction steps generalizing r with
  | nil => rfl
  | cons step steps ih =>
      rw [perform, List.foldl_cons]
      refine ih.trans ?_
      cases hstep : step.source? with
      | none =>
          rw [eq_clear hstep]
          rfl
      | some source => rw [perform_of_source hstep]

end Renderer

/-! ## What a session holds -/

/-- The sources that steps look up. -/
def sourcesOf (steps : List SessionStep) : List String := steps.filterMap SessionStep.source?

/-- The steps since the cache was cleared the last time. -/
def sinceClear (steps : List SessionStep) : List SessionStep :=
  steps.rtakeWhile fun step => step.source?.isSome

/-- The sources that were compiled successfully since the cache was cleared the last time. -/
def compiledSince (steps : List SessionStep) : Finset String :=
  ((sourcesOf (sinceClear steps)).filter fun source => (Program.ofSource source).isOk).toFinset

section CompiledSince

variable {steps : List SessionStep} {step : SessionStep} {source s : String}

theorem mem_sourcesOf_concat (h : step.source? = some source) :
    s ∈ sourcesOf (steps ++ [step]) ↔ s ∈ sourcesOf steps ∨ s = source := by
  simp [sourcesOf, h]

theorem sourcesOf_subset (front back : List SessionStep) : sourcesOf front ⊆ sourcesOf (front ++ back) := by
  rw [sourcesOf, sourcesOf, List.filterMap_append]
  exact List.subset_append_left _ _

theorem sourcesOf_sinceClear_subset : sourcesOf (sinceClear steps) ⊆ sourcesOf steps :=
  (((List.rtakeWhile_suffix _ _).sublist).filterMap _).subset

theorem isOk_iff {α ε : Type} {x : Except ε α} : x.isOk = true ↔ ∃ a, x = .ok a := by
  cases x <;> simp [Except.isOk, Except.toBool]

theorem mem_compiledSince :
    s ∈ compiledSince steps ↔ s ∈ sourcesOf (sinceClear steps) ∧ ∃ p, Program.ofSource s = .ok p := by
  rw [compiledSince, List.mem_toFinset, List.mem_filter, isOk_iff]

theorem compiledSince_clear : compiledSince (steps ++ [.clear]) = ∅ := by
  rw [compiledSince, sinceClear, List.rtakeWhile_concat_neg _ _ _ Bool.false_ne_true]
  rfl

theorem mem_compiledSince_concat (h : step.source? = some source) :
    s ∈ compiledSince (steps ++ [step]) ↔
      s ∈ compiledSince steps ∨ s = source ∧ ∃ p, Program.ofSource source = .ok p := by
  have hsince : sinceClear (steps ++ [step]) = sinceClear steps ++ [step] :=
    List.rtakeWhile_concat_pos _ _ _ (by rw [h]; rfl)
  rw [mem_compiledSince, mem_compiledSince, hsince, mem_sourcesOf_concat h, or_and_right]
  constructor
  · rintro (hs | ⟨rfl, hp⟩)
    · exact .inl hs
    · exact .inr ⟨rfl, hp⟩
  · rintro (hs | ⟨rfl, hp⟩)
    · exact .inl hs
    · exact .inr ⟨rfl, hp⟩

end CompiledSince

namespace Renderer

open ProgramCache SessionStep

variable {r : Renderer} {config : RenderConfig} {steps front mid back : List SessionStep} {step : SessionStep}
  {source : String} {compiled compiled' : Compiled} {n : Nat}

theorem key_eq_of_injOn {held : List String}
    (hkey : Set.InjOn key {s | s ∈ sourcesOf steps ∨ s = source})
    (hheld : ∀ s, s ∈ held ↔ s ∈ compiledSince steps) : ∀ s ∈ held, key s = key source → s = source := by
  intro s hs he
  have hused := sourcesOf_sinceClear_subset (mem_compiledSince.1 ((hheld s).1 hs)).1
  exact hkey (.inl hused) (.inr rfl) he

/-- Behind a session the cache holds what was compiled since it was cleared. -/
theorem after_holds (config : RenderConfig) (hkey : Set.InjOn key {s | s ∈ sourcesOf steps}) :
    ∃ held, (after config steps).cache.Holds held ∧ ∀ s, s ∈ held ↔ s ∈ compiledSince steps := by
  induction steps using List.reverseRecOn with
  | nil => exact ⟨[], holds_empty, fun s => by simp [compiledSince, sinceClear, sourcesOf]⟩
  | append_singleton steps step ih =>
      obtain ⟨held, hholds, hheld⟩ := ih (hkey.mono fun s hs => sourcesOf_subset steps [step] hs)
      rw [after, perform_concat]
      cases hstep : step.source? with
      | none =>
          obtain rfl := eq_clear hstep
          exact ⟨[], holds_clear, fun s => by simp [compiledSince_clear]⟩
      | some source =>
          have hkey' : Set.InjOn key {s | s ∈ sourcesOf steps ∨ s = source} :=
            hkey.mono fun s hs => (mem_sourcesOf_concat hstep).2 hs
          rw [perform_of_source hstep]
          refine ⟨_, (hholds.getOrCompile (key_eq_of_injOn hkey' hheld)).2, fun s => ?_⟩
          rw [mem_hold, mem_compiledSince_concat hstep, hheld]

theorem after_getOrCompile (config : RenderConfig)
    (hkey : Set.InjOn key {s | s ∈ sourcesOf steps ∨ s = source}) :
    ((after config steps).cache.getOrCompile source).1.map Compiled.program = Program.ofSource source := by
  obtain ⟨held, hholds, hheld⟩ := after_holds config (hkey.mono fun s hs => .inl hs)
  exact (hholds.getOrCompile (key_eq_of_injOn hkey hheld)).1

/-- In a session a template is rendered as it is without a cache. -/
theorem after_renderNamed (hkey : Set.InjOn key {s | s ∈ sourcesOf steps ∨ s = source}) (name : String)
    (css : Option String) (model : Value) :
    ((after config steps).renderNamed name source css model).1 = config.document name source css model := by
  have hconfig : (after config steps).config = config := perform_config
  rw [renderNamed_eq (after_getOrCompile config hkey), hconfig]

theorem after_size (hkey : Set.InjOn key {s | s ∈ sourcesOf steps}) :
    (after config steps).cache.size = (compiledSince steps).card := by
  obtain ⟨held, hholds, hheld⟩ := after_holds config hkey
  rw [hholds.size_eq]
  congr 1
  ext s
  rw [List.mem_toFinset, hheld]

/-! ## Programs that are shared -/

/-- A program that was looked up is the one that a later lookup gives, unless the cache was cleared. -/
theorem getOrCompile_kept (hfirst : step.source? = some source)
    (hok : (r.cache.getOrCompile source).1 = .ok compiled) (hmid : ∀ step ∈ mid, step ≠ .clear) :
    ((r.perform (step :: mid)).cache.getOrCompile source).1 = .ok compiled := by
  refine getOrCompile_of_lookup (perform_keeps_lookups (r := step.perform r)
    (P := fun cache => cache.entries.lookup (key source) = some compiled) ?_ hmid ?_)
  · exact fun cache source h => lookup_getOrCompile h source
  · rw [perform_of_source hfirst]
    exact lookup_of_getOrCompile hok

theorem next_le_perform : r.cache.next ≤ (r.perform steps).cache.next :=
  perform_keeps (P := fun cache => r.cache.next ≤ cache.next) (fun _ _ h => h.trans next_le_getOrCompile)
    (fun _ h => h) (Nat.le_refl _)

theorem numberedFrom_perform (h : r.cache.NumberedFrom n) : (r.perform steps).cache.NumberedFrom n :=
  perform_keeps (fun _ _ h => h.getOrCompile) (fun _ h => h.clear) h

/-- Once the cache has been cleared, a lookup gives a program that was compiled later. -/
theorem getOrCompile_later (hr : r.cache.NumberedFrom n) (hfirst : step.source? = some source)
    (hok : (r.cache.getOrCompile source).1 = .ok compiled) (hmid : .clear ∈ mid)
    (hok' : ((r.perform (step :: mid)).cache.getOrCompile source).1 = .ok compiled') :
    compiled.serial < compiled'.serial := by
  obtain ⟨before, behind, rfl⟩ := List.append_of_mem hmid
  set cleared := (r.perform (step :: before)).cache
  have hnext : compiled.serial < cleared.next := by
    have hbefore : (step.perform r).cache.next ≤ cleared.next := next_le_perform
    rw [perform_of_source hfirst] at hbefore
    exact (hr.serial_bounds hok).2.trans_le hbefore
  have hlater : (r.perform (step :: (before ++ .clear :: behind))).cache.NumberedFrom cleared.next := by
    rw [← List.cons_append, perform_append]
    exact numberedFrom_perform (r := SessionStep.clear.perform (r.perform (step :: before))) numberedFrom_clear
  exact hnext.trans_le (hlater.serial_bounds hok').1

/-! ## Sessions -/

/-- What can be seen of the cache in a session. -/
structure CacheTransparent (config : RenderConfig) (steps : List SessionStep) : Prop where
  /-- Looking a source up gives what compiling it gives. -/
  compile : ∀ front source back, steps = front ++ .compile source :: back →
    ((after config front).cache.getOrCompile source).1.map Compiled.program = Program.ofSource source
  /-- Every render gives what a new renderer gives. -/
  renderNamed : ∀ front name source css model back, steps = front ++ .renderNamed name source css model :: back →
    ((after config front).renderNamed name source css model).1 =
      ((new config).renderNamed name source css model).1
  render : ∀ front source css model back, steps = front ++ .render source css model :: back →
    ((after config front).render source css model).1 = ((new config).render source css model).1
  size : ∀ front back, steps = front ++ back → (after config front).cache.size = (compiledSince front).card
  /-- Two lookups of a source give a program of one compilation unless the cache is cleared between them. -/
  shared : ∀ front first mid second back source compiled compiled',
    steps = front ++ first :: (mid ++ second :: back) →
    first.source? = some source → second.source? = some source →
    ((after config front).cache.getOrCompile source).1 = .ok compiled →
    ((after config (front ++ first :: mid)).cache.getOrCompile source).1 = .ok compiled' →
    (compiled.serial = compiled'.serial ↔ ∀ step ∈ mid, step ≠ .clear)

/-- Over a whole session, that programs are kept is seen in nothing but their number and their identity, as long
as no two of the sources have the same key. -/
theorem session_transparent (config : RenderConfig) (steps : List SessionStep)
    (hkey : Set.InjOn key {s | s ∈ sourcesOf steps}) : CacheTransparent config steps := by
  have hused {front back step source} (hsteps : steps = front ++ step :: back)
      (hstep : step.source? = some source) : Set.InjOn key {s | s ∈ sourcesOf front ∨ s = source} := by
    refine hkey.mono fun s hs => ?_
    rw [Set.mem_ofPred_eq, hsteps, ← List.singleton_append, ← List.append_assoc]
    exact sourcesOf_subset _ _ ((mem_sourcesOf_concat hstep).2 hs)
  constructor
  case compile =>
    intro front source back hsteps
    exact after_getOrCompile config (hused hsteps rfl)
  case renderNamed =>
    intro front name source css model back hsteps
    rw [after_renderNamed (hused hsteps rfl), renderNamed_new]
  case render =>
    intro front source css model back hsteps
    rw [render, render, after_renderNamed (hused hsteps rfl), renderNamed_new]
  case size =>
    intro front back hsteps
    exact after_size (hkey.mono fun s hs => hsteps ▸ sourcesOf_subset front back hs)
  case shared =>
    intro front first mid second back source compiled compiled' _ hfirst _ hok hok'
    have hfront : (after config front).cache.NumberedFrom 0 := numberedFrom_perform numberedFrom_empty
    rw [after, perform_append] at hok'
    constructor
    · intro hserial step hstep hclear
      have hlater := getOrCompile_later hfront hfirst hok (hclear ▸ hstep) hok'
      exact absurd hserial (Nat.ne_of_lt hlater)
    · intro hmid
      have hkept := (getOrCompile_kept hfirst hok hmid).symm.trans hok'
      cases hkept
      rfl

/-- A template whose render fails, another one that is not compiled, and the first one again, before and after
the cache is cleared. -/
def mixedSession : List SessionStep :=
  [.renderNamed "a" "@m" none .null, .compile "@\x7b", .compile "@m", .clear, .render "@m" none .null]

theorem session_transparent_mixed :
    Set.InjOn key {s | s ∈ sourcesOf mixedSession} ∧
      (after .default (mixedSession.take 3)).cache.size = 1 ∧
      ∃ first second third,
        ((after .default []).cache.getOrCompile "@m").1 = .ok first ∧
        ((after .default (mixedSession.take 2)).cache.getOrCompile "@m").1 = .ok second ∧
        ((after .default (mixedSession.take 4)).cache.getOrCompile "@m").1 = .ok third ∧
        first.serial = second.serial ∧ second.serial ≠ third.serial := by
  have hm : Program.ofSource "@m" = .ok ⟨[.value 1 (.path ["m"])], .lf⟩ := by cbv
  have hopen : Program.ofSource "@\x7b" = .error ⟨1, .unterminatedBlock 1⟩ := by cbv
  have hkey : Set.InjOn key {s | s ∈ sourcesOf mixedSession} := by
    have hne : key "@m" ≠ key "@\x7b" := by decide +kernel
    have hsources : ∀ s ∈ sourcesOf mixedSession, s = "@m" ∨ s = "@\x7b" := by decide
    intro s hs s' hs' he
    rcases hsources s hs with rfl | rfl <;> rcases hsources s' hs' with rfl | rfl
    · rfl
    · exact absurd he hne
    · exact absurd he.symm hne
    · rfl
  have hsession := session_transparent .default mixedSession hkey
  have hlook (n : Nat) : ∃ compiled,
      ((after .default (mixedSession.take n)).cache.getOrCompile "@m").1 = .ok compiled := by
    have hused : Set.InjOn key {s | s ∈ sourcesOf (mixedSession.take n) ∨ s = "@m"} := by
      refine hkey.mono ?_
      rintro s (hs | rfl)
      · rw [← List.take_append_drop n mixedSession]
        exact sourcesOf_subset _ _ hs
      · exact List.mem_cons_self
    have hprogram := after_getOrCompile .default hused
    rw [hm, map_eq_ok_iff] at hprogram
    obtain ⟨compiled, hok, _⟩ := hprogram
    exact ⟨compiled, hok⟩
  obtain ⟨first, hfirst⟩ := hlook 0
  obtain ⟨second, hsecond⟩ := hlook 2
  obtain ⟨third, hthird⟩ := hlook 4
  refine ⟨hkey, ?_, first, second, third, hfirst, hsecond, hthird, ?_, ?_⟩
  · rw [hsession.size (mixedSession.take 3) (mixedSession.drop 3) rfl]
    have hsince : sourcesOf (sinceClear (mixedSession.take 3)) = ["@m", "@\x7b", "@m"] := by cbv
    simp [compiledSince, hsince, hm, hopen, Except.isOk, Except.toBool]
  · rw [hsession.shared [] _ [.compile "@\x7b"] _ _ "@m" first second rfl rfl rfl hfirst hsecond]
    rintro step hstep rfl
    cases List.mem_singleton.1 hstep
  · rw [Ne, hsession.shared (mixedSession.take 2) _ [.clear] _ [] "@m" second third rfl rfl rfl hsecond hthird]
    exact fun hclear => hclear .clear List.mem_cons_self rfl

end Renderer

end MailTemplate
