import MailTemplate.CommandLine.Run

/-!
# The program

The command line over the files of the system.
-/

namespace MailTemplate

/-- The reason behind an error of the system. -/
def fileErrorOf : IO.Error → FileError
  | .noFileOrDirectory .. => .notFound
  | .inappropriateType .. => .isDirectory
  | e => .other (toString e)

def systemFiles : FileAccess IO where
  read path := do
    try
      match String.fromUTF8? (← IO.FS.readBinFile path) with
      | some s => return .ok s
      | none => return .error .notText
    catch e => return .error (fileErrorOf e)
  write path text := do
    try
      IO.FS.writeFile path text
      return .ok ()
    catch e => return .error (fileErrorOf e)

end MailTemplate

open MailTemplate in
/-- Runs the program on the files of the system; colours are for terminals. -/
def main (args : List String) : IO UInt32 := do
  let colour ← (← IO.getStdout).isTty
  let outcome ← CommandLine.run systemFiles colour args
  IO.print outcome.stdout
  IO.eprint outcome.stderr
  return UInt32.ofNat outcome.status
