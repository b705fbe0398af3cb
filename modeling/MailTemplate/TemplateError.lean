import MailTemplate.Program
import MailTemplate.Render.Run

/-!
# Errors of templates

What can go wrong between the source of a template and its text: either it does not compile, and
then no model is looked at, or its program stops.
-/

namespace MailTemplate

open Text

inductive TemplateError where
  | parse (e : SyntaxError)
  | run (e : RuntimeError)
  /-- A loop without a limit met its bound on rounds. -/
  | unfinished

namespace TemplateError

def ofHalt : Halt → TemplateError
  | .error e => run e
  | .unfinished => unfinished

def line? : TemplateError → Option Nat
  | parse e => some e.line
  | run e => some e.line
  | unfinished => none

def message : TemplateError → String
  | parse e => e.message
  | run e => e.message
  | unfinished => "the template does not come to an end"

/-- The text of a source's line, counted from one. -/
def lineText? (source : String) : Nat → Option String
  | 0 => none
  | n + 1 => (linesOf source)[n]?.map String.ofList

def sourceLine? (e : TemplateError) (source : String) : Option String :=
  e.line?.bind (lineText? source)

end TemplateError

def renderSource (o : RenderOptions) (source : String) (model : Value) :
    Except TemplateError Rendered :=
  match Program.ofSource source with
  | .error e => .error (.parse e)
  | .ok p => (p.render o model).mapError .ofHalt

end MailTemplate
