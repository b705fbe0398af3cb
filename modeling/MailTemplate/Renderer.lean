import MailTemplate.Cache
import MailTemplate.Config
import MailTemplate.Files.Basic
import MailTemplate.TemplateError

/-!
# Renderers

A renderer has a configuration and keeps the templates it compiled. It turns a template, a model
and an optional style sheet into a document.
-/

namespace MailTemplate

/-- Why there is no document. -/
inductive DocumentError where
  | file (path : String) (e : FileError)
  | template (name : String) (lineText : Option String) (e : TemplateError)
  | config (path : String)

namespace DocumentError

/-- The error of a template under the name and with the line of its source. -/
def ofTemplate (name source : String) (e : TemplateError) : DocumentError :=
  template name (e.sourceLine? source) e

def message : DocumentError → String
  | file path e => "I/O error at " ++ path ++ ": " ++ e.message
  | template name _ e => "template " ++ name ++ ": " ++ e.message
  | config path => "failed to parse config at " ++ path

end DocumentError

/-- The name of a template that is given as a text. -/
def inlineName : String := "<inline>"

structure Renderer where
  config : RenderConfig
  cache : ProgramCache

namespace Renderer

def new (config : RenderConfig) : Renderer := ⟨config, .empty⟩

/-- The document with its style sheet in place. -/
def withStyle (config : RenderConfig) (css : Option String) (r : Rendered) : Rendered :=
  match css with
  | some css => { r with text := Style.inject r.text (Style.wrap css) config.placeholder }
  | none => r

/-- Renders a template under a name. -/
def renderNamed (r : Renderer) (name source : String) (css : Option String) (model : Value) :
    Except DocumentError Rendered × Renderer :=
  match r.cache.getOrCompile source with
  | (.error e, cache) => (.error (.ofTemplate name source (.parse e)), { r with cache })
  | (.ok compiled, cache) =>
      let result := match compiled.program.render r.config.options model with
        | .error h => .error (.ofTemplate name source (.ofHalt h))
        | .ok rendered => .ok (withStyle r.config css rendered)
      (result, { r with cache })

def render (r : Renderer) (source : String) (css : Option String) (model : Value) :
    Except DocumentError Rendered × Renderer :=
  r.renderNamed inlineName source css model

end Renderer

variable {m : Type → Type} [Monad m] (files : FileAccess m)

/-- The text of a file, or the error that names it. -/
def readDocument (path : String) : m (Except DocumentError String) := do
  match ← files.read path with
  | .ok s => return .ok s
  | .error e => return .error (.file path e)

def RenderConfig.load (path : String) : m (Except DocumentError RenderConfig) := do
  match ← readDocument files path with
  | .error e => return .error e
  | .ok s =>
      match RenderConfig.ofYaml? s with
      | some c => return .ok c
      | none => return .error (.config path)

/-- Renders the template in a file with the style sheet in another one. -/
def Renderer.generate (r : Renderer) (htmlPath cssPath : String) (model : Value) :
    m (Except DocumentError String × Renderer) := do
  match ← readDocument files cssPath with
  | .error e => return (.error e, r)
  | .ok css =>
      match ← readDocument files htmlPath with
      | .error e => return (.error e, r)
      | .ok source =>
          let (result, r) := r.renderNamed htmlPath source (some css) model
          return (result.map Rendered.text, r)

end MailTemplate
