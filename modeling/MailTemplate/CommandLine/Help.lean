import MailTemplate.CommandLine.Paint

/-!
# Help pages

A page says what a command does and how it is called, and explains arguments, options and commands
in tables. The explanations of a table start in one column.
-/

namespace MailTemplate.CommandLine

inductive Topic where
  | program
  | render
  | check
  | help
  deriving Repr, DecidableEq

/-- A part of a line, plain or in a style. -/
structure Span where
  style : Option Paint
  text : String
  deriving Repr, DecidableEq

namespace Span

def plain (text : String) : Span := ⟨none, text⟩

def literal (text : String) : Span := ⟨some .literal, text⟩

def display (colour : Bool) (s : Span) : String :=
  match s.style with
  | some p => paint colour p s.text
  | none => s.text

end Span

def width (line : List Span) : Nat := (line.map fun s => s.text.length).foldl (· + ·) 0

def displayLine (colour : Bool) (line : List Span) : String :=
  String.join (line.map (Span.display colour))

/-- A row of a table: what is explained, and the explanation. -/
structure Entry where
  term : List Span
  meaning : String
  deriving Repr, DecidableEq

namespace Entry

def command (name meaning : String) : Entry := ⟨[.literal name], meaning⟩

/-- An argument, under the name that stands for it. -/
def argument (name meaning : String) : Entry := ⟨[.plain name], meaning⟩

/-- An option with a letter, a name and what follows it. -/
def option (letter name rest meaning : String) : Entry :=
  ⟨[.literal letter, .plain ", ", .literal name, .plain rest], meaning⟩

def longOption (name rest meaning : String) : Entry :=
  ⟨[.plain "    ", .literal name, .plain rest], meaning⟩

/-- The row of a table whose widest term has `column` characters. -/
def display (colour : Bool) (column : Nat) (e : Entry) : String :=
  let gap := String.ofList (List.replicate (column - width e.term + 2) ' ')
  "  " ++ displayLine colour e.term ++ gap ++ e.meaning ++ "\n"

end Entry

structure Table where
  title : String
  entries : List Entry
  deriving Repr, DecidableEq

def Table.display (colour : Bool) (t : Table) : String :=
  let column := (t.entries.map fun e => width e.term).foldl max 0
  paint colour .heading (t.title ++ ":") ++ "\n"
    ++ String.join (t.entries.map (Entry.display colour column))

/-- What a page says about a command: its purpose, the words that call it, what follows them. -/
structure Page where
  purpose : String
  call : String
  rest : String
  tables : List Table
  deriving Repr, DecidableEq

def Page.display (colour : Bool) (p : Page) : String :=
  p.purpose ++ "\n\n"
    ++ paint colour .heading "Usage:" ++ " "
    ++ displayLine colour [.literal p.call, .plain p.rest] ++ "\n"
    ++ String.join (p.tables.map fun t => "\n" ++ t.display colour)

/-! ## The pages -/

def renderPurpose : String := "Render a template to HTML"

def checkPurpose : String := "Compile templates and report syntax errors without rendering"

def helpPurpose : String := "Print this message or the help of the given subcommand(s)"

def verboseOption : Entry :=
  .option "-v" "--verbose" "..." "Log compile and render steps to stderr (`-vv` for everything)"

def helpOption : Entry := .option "-h" "--help" "" "Print help"

def Topic.page : Topic → Page
  | program => {
      purpose := "Render HTML mail templates against JSON models"
      call := "htmlmail"
      rest := " [OPTIONS] <COMMAND>"
      tables := [
        ⟨"Commands", [
          .command "render" renderPurpose,
          .command "check" checkPurpose,
          .command "help" helpPurpose]⟩,
        ⟨"Options", [
          verboseOption,
          helpOption,
          .option "-V" "--version" "" "Print version"]⟩] }
  | render => {
      purpose := renderPurpose
      call := "htmlmail render"
      rest := " [OPTIONS] <TEMPLATE>"
      tables := [
        ⟨"Arguments", [.argument "<TEMPLATE>" "Template file to render"]⟩,
        ⟨"Options", [
          .longOption "--style" " <CSS>" "CSS file injected at the style placeholder",
          verboseOption,
          .longOption "--model" " <JSON>"
            "JSON file holding the model. Defaults to an empty object",
          .longOption "--config" " <YAML>" "YAML render config",
          .option "-o" "--out" " <FILE>" "Write the document here instead of stdout",
          .longOption "--strict" "" "Report suspicious evaluations such as division by zero",
          helpOption]⟩] }
  | check => {
      purpose := checkPurpose
      call := "htmlmail check"
      rest := " [OPTIONS] <TEMPLATES>..."
      tables := [
        ⟨"Arguments", [.argument "<TEMPLATES>..." "Template files to check"]⟩,
        ⟨"Options", [verboseOption, helpOption]⟩] }
  | help => {
      purpose := helpPurpose
      call := "htmlmail help"
      rest := " [COMMAND]..."
      tables := [⟨"Arguments", [.argument "[COMMAND]..." "Print help for the subcommand(s)"]⟩] }

end MailTemplate.CommandLine
