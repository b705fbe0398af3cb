import MailTemplate.CommandLine.Paint
import MailTemplate.Renderer

/-!
# What the command line writes

Messages on the standard output and the standard error, with or without colours.
-/

namespace MailTemplate.CommandLine

/-- What a run of the program leaves behind, files apart. -/
structure Outcome where
  status : Nat
  stdout : String
  stderr : String
  deriving Repr, DecidableEq

def holds (text part : String) : Bool :=
  match part.toList with
  | [] => true
  | c :: cs => 1 < (Style.pieces c cs text.toList).length

/-- A message with its cause, unless it names the cause already. -/
def withCause (message cause : String) : String :=
  if holds message cause then message else message ++ ": " ++ cause

/-- A number of a line, at least five characters wide. -/
def lineNumber (n : Nat) : String :=
  let s := toString n
  String.ofList (List.replicate (5 - s.length) ' ') ++ s

inductive Failure where
  | document (e : DocumentError)
  /-- A file that the command cannot do without. -/
  | file (task path : String) (e : FileError)
  | notJson (path : String)
  | uncompiled (failed total : Nat)

namespace Failure

def message : Failure → String
  | document e => e.message
  | file task path e => withCause ("could not " ++ task ++ " " ++ path) e.message
  | notJson path => "model " ++ path ++ " is not valid JSON"
  | uncompiled failed total =>
      toString failed ++ " of " ++ toString total ++ " template(s) failed to compile"

def lineNote? : Failure → Option String
  | document (.template _ (some text) e) => e.line?.map fun n => lineNumber n ++ " | " ++ text
  | _ => none

/-- The failure as it is written to the standard error. -/
def report (colour : Bool) (f : Failure) : String :=
  let note := match f.lineNote? with
    | some s => paint colour .dim s ++ "\n"
    | none => ""
  paint colour .error "error:" ++ " " ++ f.message ++ "\n" ++ note

end Failure

def warningLine (colour : Bool) (w : Warning) : String :=
  paint colour .warning "warning:" ++ " line " ++ toString w.line ++ ": " ++ w.cause.message ++ "\n"

def passLine (colour : Bool) (path : String) : String :=
  paint colour .success "ok" ++ " " ++ path ++ "\n"

/-- The report on a template that does not compile, with its source. -/
def failLines (colour : Bool) (path source : String) (e : SyntaxError) : String :=
  let line := match TemplateError.lineText? source e.line with
    | some text => "    " ++ paint colour .dim text ++ "\n"
    | none => ""
  paint colour .error "FAIL" ++ " " ++ path ++ ": " ++ e.message ++ "\n" ++ line

end MailTemplate.CommandLine
