import MailTemplate.CommandLine.Arguments
import MailTemplate.CommandLine.Report
import MailTemplate.Json.Reader

/-!
# Commands

`render` writes a document only when nothing can fail any more, either to a file or to the standard
output. `check` reports on one template after another.
-/

namespace MailTemplate.CommandLine

variable {m : Type → Type} [Monad m] (files : FileAccess m)

/-- Reads a file that the command cannot do without. -/
def readFor (task path : String) : ExceptT Failure m String := do
  match ← files.read path with
  | .ok s => return s
  | .error e => throw (.file task path e)

def loadConfig (path : Option String) : ExceptT Failure m RenderConfig := do
  match path with
  | none => return .default
  | some path =>
      match ← (RenderConfig.load files path : m _) with
      | .ok c => return c
      | .error e => throw (.document e)

/-- The model in a file; without one an object without members. -/
def loadModel (path : Option String) : ExceptT Failure m Value := do
  match path with
  | none => return .ofJson [] (.object [])
  | some path =>
      match Json.ofText? (← readFor files "read model" path) with
      | some j => return .ofJson [] j
      | none => throw (.notJson path)

def loadStyle (path : Option String) : ExceptT Failure m (Option String) := do
  match path with
  | none => return none
  | some path => return some (← readFor files "read style sheet" path)

def renderDocument (template : String) (args : RenderArgs) : ExceptT Failure m Rendered := do
  let config ← loadConfig files args.config
  let config := { config with strict := config.strict || args.strict }
  let model ← loadModel files args.model
  let source ← readFor files "read template" template
  let css ← loadStyle files args.style
  match ((Renderer.new config).renderNamed template source css model).1 with
  | .ok r => return r
  | .error e => throw (.document e)

def runRender (colour : Bool) (template : String) (args : RenderArgs) : m Outcome := do
  match ← (renderDocument files template args).run with
  | .error f => return ⟨1, "", f.report colour⟩
  | .ok r =>
      let warnings := String.join (r.warnings.map (warningLine colour))
      match args.out with
      | none => return ⟨0, r.text, warnings⟩
      | some path =>
          match ← files.write path r.text with
          | .ok () => return ⟨0, "", warnings⟩
          | .error e => return ⟨1, "", warnings ++ (Failure.file "write" path e).report colour⟩

/-- Checks templates in turn, up to the first that cannot be read. -/
def checkAll (colour : Bool) (total : Nat) (failed : Nat) (stdout : String) :
    List String → m Outcome
  | [] =>
      if failed = 0 then return ⟨0, stdout, ""⟩
      else return ⟨1, stdout, (Failure.uncompiled failed total).report colour⟩
  | path :: paths => do
      match ← files.read path with
      | .error e => return ⟨1, stdout, (Failure.file "read template" path e).report colour⟩
      | .ok source =>
          match Program.ofSource source with
          | .ok _ => checkAll colour total failed (stdout ++ passLine colour path) paths
          | .error e =>
              checkAll colour total (failed + 1) (stdout ++ failLines colour path source e) paths

def runCheck (colour : Bool) (templates : List String) : m Outcome :=
  checkAll files colour templates.length 0 "" templates

def versionText : String := "htmlmail 0.1.0\n"

/-- Does what is requested. Arguments that cannot be are answered with the help page of the program; it
stands in place of a text that would tell what is wrong with them. -/
def runRequest (colour : Bool) : Request → m Outcome
  | .render template args => runRender files colour template args
  | .check templates => runCheck files colour templates
  | .version => return ⟨0, versionText, ""⟩
  | .help topic => return ⟨0, topic.page.display colour, ""⟩
  | .misuse => return ⟨2, "", Topic.program.page.display colour⟩

def run (colour : Bool) (args : List String) : m Outcome :=
  runRequest files colour (.ofArgs args)

end MailTemplate.CommandLine
