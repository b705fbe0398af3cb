import MailTemplate.CommandLine.Run
import MailTemplate.Files.Tree
import MailTemplate.Proofs.Renderer.Diagnostics

/-!
# What the commands load

On a tree of files, all that `render` needs is loaded without a change to the tree, and what it comes to is a
function of the tree (`CommandLine.gives_documentIn`).
-/

namespace MailTemplate.CommandLine

variable {α β : Type} {t : FileTree}

theorem run_bind_eq {x : StateM FileTree α} {f : α → StateM FileTree β} {a : α} {t' : FileTree}
    (h : x.run t = (a, t')) : (x >>= f).run t = (f a).run t' := by
  rw [StateT.run_bind, h]
  rfl

theorem run_read (t : FileTree) (path : String) : (FileTree.access.read path).run t = (t.read path, t) := rfl

/-! ## Computations that look at files -/

/-- On the tree the computation comes to `r` and leaves the files as they are. -/
def Gives (t : FileTree) (x : ExceptT Failure (StateM FileTree) α) (r : Except Failure α) : Prop :=
  x.run.run t = (r, t)

section Gives

variable {x : ExceptT Failure (StateM FileTree) α} {f : α → ExceptT Failure (StateM FileTree) β}

theorem gives_pure (a : α) : Gives t (pure a) (.ok a) := rfl

theorem gives_throw (e : Failure) : Gives t (throw e : ExceptT Failure (StateM FileTree) α) (.error e) := rfl

theorem gives_monadLift {x : StateM FileTree α} {a : α} (h : x.run t = (a, t)) :
    Gives t (monadLift x : ExceptT Failure (StateM FileTree) α) (.ok a) := by
  rw [Gives, ExceptT.run_monadLift, StateT.run_map]
  change (fun p : α × FileTree => (Except.ok p.1, p.2)) (x.run t) = _
  rw [h]

theorem Gives.bind {r : Except Failure α} {g : α → Except Failure β} (hx : Gives t x r)
    (hf : ∀ a, Gives t (f a) (g a)) : Gives t (x >>= f) (r >>= g) := by
  rw [Gives, ExceptT.run_bind, run_bind_eq hx]
  cases r with
  | ok a => exact hf a
  | error e => rfl

end Gives

/-! ## What is loaded -/

section Loading

variable (t : FileTree)

def textIn (task path : String) : Except Failure String := (t.read path).mapError (.file task path)

def configAt (path : String) : Except DocumentError RenderConfig :=
  match t.read path with
  | .error e => .error (.file path e)
  | .ok s => match RenderConfig.ofYaml? s with
      | some config => .ok config
      | none => .error (.config path)

def configIn : Option String → Except Failure RenderConfig
  | none => .ok .default
  | some path => (configAt t path).mapError .document

def modelIn : Option String → Except Failure Value
  | none => .ok (.ofJson [] (.object []))
  | some path => do
      match Json.ofText? (← textIn t "read model" path) with
      | some j => return .ofJson [] j
      | none => throw (.notJson path)

def styleIn : Option String → Except Failure (Option String)
  | none => .ok none
  | some path => do return some (← textIn t "read style sheet" path)

/-- What `render` comes to before anything is written. -/
def documentIn (path : String) (a : RenderArgs) : Except Failure Rendered := do
  let config ← configIn t a.config
  let model ← modelIn t a.model
  let source ← textIn t "read template" path
  let css ← styleIn t a.style
  ({ config with strict := config.strict || a.strict } : RenderConfig).document path source css model |>.mapError
    .document

theorem gives_textIn (task path : String) : Gives t (readFor FileTree.access task path) (textIn t task path) := by
  refine (gives_monadLift (run_read t path)).bind (g := fun r => r.mapError (.file task path)) fun r => ?_
  cases r <;> rfl

theorem run_load (path : String) :
    (RenderConfig.load FileTree.access path).run t = (configAt t path, t) := by
  have hread : (readDocument FileTree.access path).run t = ((t.read path).mapError (.file path), t) := by
    rw [readDocument, run_bind_eq (run_read t path)]
    cases t.read path <;> rfl
  rw [RenderConfig.load, run_bind_eq hread, configAt]
  cases t.read path with
  | error e => rfl
  | ok s =>
      dsimp only [Except.mapError]
      cases RenderConfig.ofYaml? s <;> rfl

theorem gives_configIn (path : Option String) :
    Gives t (loadConfig FileTree.access path) (configIn t path) := by
  cases path with
  | none => exact gives_pure _
  | some path =>
      refine (gives_monadLift (run_load t path)).bind (g := fun r => r.mapError .document) fun r => ?_
      cases r with
      | ok config => exact gives_pure _
      | error e => exact gives_throw _

theorem gives_modelIn (path : Option String) : Gives t (loadModel FileTree.access path) (modelIn t path) := by
  cases path with
  | none => exact gives_pure _
  | some path =>
      refine (gives_textIn t "read model" path).bind fun s => ?_
      cases Json.ofText? s with
      | none => exact gives_throw _
      | some j => exact gives_pure _

theorem gives_styleIn (path : Option String) : Gives t (loadStyle FileTree.access path) (styleIn t path) := by
  cases path with
  | none => exact gives_pure _
  | some path => exact (gives_textIn t "read style sheet" path).bind fun _ => gives_pure _

theorem gives_documentIn (path : String) (a : RenderArgs) :
    Gives t (renderDocument FileTree.access path a) (documentIn t path a) := by
  refine (gives_configIn t a.config).bind fun config => ?_
  refine (gives_modelIn t a.model).bind fun model => ?_
  refine (gives_textIn t "read template" path).bind fun source => ?_
  refine (gives_styleIn t a.style).bind fun css => ?_
  rw [Renderer.renderNamed_new]
  cases ({ config with strict := config.strict || a.strict } : RenderConfig).document path source css model with
  | ok r => exact gives_pure _
  | error e => exact gives_throw _

end Loading

end MailTemplate.CommandLine
