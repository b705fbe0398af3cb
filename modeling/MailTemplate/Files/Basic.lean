/-!
# Access to files

What a program asks of files: to read a text and to write one. Why this can fail, and how each
reason reads.
-/

namespace MailTemplate

inductive FileError where
  | notFound
  | notDirectory
  | isDirectory
  | nameTooLong
  | noSpace
  /-- The path holds a NUL character, which no name can have. -/
  | nulInName
  /-- The bytes of the file are not a text in UTF-8. -/
  | notText
  | other (text : String)
  deriving Repr, DecidableEq

def FileError.message : FileError → String
  | notFound => "No such file or directory (os error 2)"
  | notDirectory => "Not a directory (os error 20)"
  | isDirectory => "Is a directory (os error 21)"
  | nameTooLong => "File name too long (os error 36)"
  | noSpace => "No space left on device (os error 28)"
  | nulInName => "file name contained an unexpected NUL byte"
  | notText => "stream did not contain valid UTF-8"
  | other text => text

structure FileAccess (m : Type → Type) where
  read : String → m (Except FileError String)
  write : String → String → m (Except FileError Unit)

end MailTemplate
