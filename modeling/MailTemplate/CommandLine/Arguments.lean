import MailTemplate.CommandLine.Help

/-!
# Arguments

The arguments of the command line. They are read from left to right, and the first that asks for
help or the version, or that cannot be, decides.
-/

namespace MailTemplate.CommandLine

structure RenderArgs where
  template : Option String
  style : Option String
  model : Option String
  config : Option String
  out : Option String
  strict : Bool
  deriving Repr, DecidableEq

def RenderArgs.empty : RenderArgs := ⟨none, none, none, none, none, false⟩

inductive Request where
  /-- All but the template is optional. -/
  | render (template : String) (args : RenderArgs)
  | check (templates : List String)
  | version
  | help (topic : Topic)
  /-- Arguments that cannot be; what is wrong with them is not told apart. -/
  | misuse
  deriving Repr, DecidableEq

/-- The options of `render` that take a path. -/
inductive PathOption where
  | style
  | model
  | config
  | out
  deriving Repr, DecidableEq

def PathOption.ofLong? : String → Option PathOption
  | "style" => some style
  | "model" => some model
  | "config" => some config
  | "out" => some out
  | _ => none

namespace RenderArgs

/-- Sets a path, which is not empty and not set yet. -/
def setPath? (a : RenderArgs) (o : PathOption) (path : String) : Option RenderArgs :=
  if path.isEmpty then none
  else match o with
    | .style => if a.style.isSome then none else some { a with style := some path }
    | .model => if a.model.isSome then none else some { a with model := some path }
    | .config => if a.config.isSome then none else some { a with config := some path }
    | .out => if a.out.isSome then none else some { a with out := some path }

def setTemplate? (a : RenderArgs) (path : String) : Option RenderArgs :=
  if path.isEmpty || a.template.isSome then none else some { a with template := some path }

def setStrict? (a : RenderArgs) : Option RenderArgs :=
  if a.strict then none else some { a with strict := true }

end RenderArgs

inductive Shape where
  /-- Two dashes, behind which there are no options. -/
  | separator
  | long (name : String) (value : Option String)
  | short (letters : List Char)
  | plain
  deriving Repr, DecidableEq

def Shape.of (arg : String) : Shape :=
  match arg.toList with
  | ['-', '-'] => separator
  | '-' :: '-' :: cs =>
      let name := String.ofList (cs.takeWhile (· != '='))
      match cs.dropWhile (· != '=') with
      | _ :: value => long name (some (String.ofList value))
      | [] => long name none
  | '-' :: c :: cs => short (c :: cs)
  | _ => plain

/-- What reading some letters behind a dash gives. -/
inductive Letters (α : Type) where
  | done (a : α)
  /-- The last letter takes the next argument. -/
  | awaits (a : α)
  | request (r : Request)

/-- Reads letters of `render`. The letter `o` takes the letters behind it as a path, and the next
argument if there are none. -/
def renderLetters (a : RenderArgs) : List Char → Letters RenderArgs
  | [] => .done a
  | 'v' :: cs => renderLetters a cs
  | 'h' :: _ => .request (.help .render)
  | 'o' :: cs =>
      let path := match cs with
        | '=' :: cs => cs
        | cs => cs
      if cs.isEmpty then .awaits a
      else match a.setPath? .out (String.ofList path) with
        | some a => .done a
        | none => .request .misuse
  | _ => .request .misuse

def renderPlain (a : RenderArgs) : List String → Request
  | [] =>
      match a.template with
      | some path => .render path a
      | none => .misuse
  | arg :: args =>
      match a.setTemplate? arg with
      | some a => renderPlain a args
      | none => .misuse

/-- Reads the arguments of `render`; `awaiting` is an option that takes the next one. -/
def readRender (awaiting : Option PathOption) (a : RenderArgs) : List String → Request
  | [] => if awaiting.isSome then .misuse else renderPlain a []
  | arg :: args =>
      match awaiting, Shape.of arg with
      | some o, .plain =>
          match a.setPath? o arg with
          | some a => readRender none a args
          | none => .misuse
      | some _, _ => .misuse
      | none, .separator => renderPlain a args
      | none, .plain =>
          match a.setTemplate? arg with
          | some a => readRender none a args
          | none => .misuse
      | none, .short letters =>
          match renderLetters a letters with
          | .done a => readRender none a args
          | .awaits a => readRender (some .out) a args
          | .request r => r
      | none, .long "help" none => .help .render
      | none, .long "verbose" none => readRender none a args
      | none, .long "strict" none =>
          match a.setStrict? with
          | some a => readRender none a args
          | none => .misuse
      | none, .long name value =>
          match PathOption.ofLong? name, value with
          | some o, none => readRender (some o) a args
          | some o, some path =>
              match a.setPath? o path with
              | some a => readRender none a args
              | none => .misuse
          | none, _ => .misuse

def checkLetters : List Char → Letters Unit
  | [] => .done ()
  | 'v' :: cs => checkLetters cs
  | 'h' :: _ => .request (.help .check)
  | _ => .request .misuse

/-- The request to check templates: at least one, and none of them empty. -/
def checkRequest (templates : List String) : Request :=
  if templates.isEmpty || templates.any String.isEmpty then .misuse else .check templates

/-- Reads the arguments of `check`, behind some templates in reverse order. -/
def readCheck (templates : List String) : List String → Request
  | [] => checkRequest templates.reverse
  | arg :: args =>
      match Shape.of arg with
      | .separator => checkRequest (templates.reverse ++ args)
      | .plain => if arg.isEmpty then .misuse else readCheck (arg :: templates) args
      | .short letters =>
          match checkLetters letters with
          | .request r => r
          | _ => readCheck templates args
      | .long "help" none => .help .check
      | .long "verbose" none => readCheck templates args
      | .long _ _ => .misuse

def readHelp : List String → Request
  | [] => .help .program
  | ["render"] => .help .render
  | ["check"] => .help .check
  | ["help"] => .help .help
  | _ => .misuse

/-- Reads letters in front of the command. -/
def programLetters : List Char → Letters Unit
  | [] => .done ()
  | 'v' :: cs => programLetters cs
  | 'h' :: _ => .request (.help .program)
  | 'V' :: _ => .request .version
  | _ => .request .misuse

def Request.ofArgs : List String → Request
  | [] => .misuse
  | arg :: args =>
      match Shape.of arg with
      | .plain =>
          match arg with
          | "render" => readRender none .empty args
          | "check" => readCheck [] args
          | "help" => readHelp args
          | _ => .misuse
      | .short letters =>
          match programLetters letters with
          | .request r => r
          | _ => ofArgs args
      | .long "help" none => .help .program
      | .long "version" none => .version
      | .long "verbose" none => ofArgs args
      | _ => .misuse

end MailTemplate.CommandLine
