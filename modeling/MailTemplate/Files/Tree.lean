import MailTemplate.Files.Basic

/-!
# Trees of files

Files kept in memory, at locations below a topmost directory. Paths start there, if a slash is
their first character, or at the working directory. Directories are the beginnings of the locations
of files, the working directory and what is above it, and some that are always there. The streams
that a program writes to have names as well, and what is written to them by name is shown.
-/

namespace MailTemplate

/-- The names on the way down from the topmost directory. -/
abbrev Location := List String

/-- Where paths without a slash in front start. The names on the way there are empty, which no path
can spell. -/
def Location.working : Location := ["", ""]

inductive Stream where
  | output
  | errors
  deriving Repr, DecidableEq

/-- What is there to be read and written, but keeps nothing that could be read. -/
inductive Device where
  /-- Takes every text. -/
  | null
  /-- Takes no text but the empty one. -/
  | full
  /-- Shows every text that it takes. -/
  | stream (s : Stream)
  deriving Repr, DecidableEq

structure FileTree where
  files : List (Location × ByteArray)
  /-- The texts that were written to streams by name, in their order. -/
  shown : List (Stream × String) := []

namespace FileTree

def devices : List (Location × Device) :=
  [(["dev", "null"], .null), (["dev", "stdin"], .null), (["dev", "full"], .full),
    (["dev", "stdout"], .stream .output), (["dev", "stderr"], .stream .errors)]

/-- What a stream shows of what was written to it by name. -/
def shownOn (t : FileTree) (s : Stream) : String :=
  String.join ((t.shown.filter (·.1 == s)).map (·.2))

/-- The names in the topmost directory that are directories. -/
def topDirectories : List String :=
  ["bin", "boot", "dev", "etc", "home", "lib", "media", "mnt", "opt", "proc", "root", "run", "sbin",
    "srv", "sys", "tmp", "usr", "var"]

def file? (t : FileTree) (l : Location) : Option ByteArray := t.files.lookup l

def isDirectory (t : FileTree) (l : Location) : Bool :=
  l.isPrefixOf Location.working || topDirectories.any (l == [·])
    || t.files.any fun f => l.isPrefixOf f.1 && l.length < f.1.length

/-- Whether a location holds something that is no directory. -/
def isOccupied (t : FileTree) (l : Location) : Bool :=
  (devices.lookup l).isSome || (t.file? l).isSome

/-- The most bytes that a component of a path may have. -/
def maxComponent : Nat := 255

/-- The most bytes that a path may have. -/
def maxPath : Nat := 4095

/-- The location that components lead to from another one. All but the last must be directories;
nothing is above the topmost one. -/
def follow (t : FileTree) (l : Location) : List String → Except FileError Location
  | [] => .ok l
  | c :: cs =>
      if t.isOccupied l then .error .notDirectory
      else if !t.isDirectory l then .error .notFound
      else if c = "" || c = "." then t.follow l cs
      else if c = ".." then t.follow l.dropLast cs
      else if maxComponent < c.utf8ByteSize then .error .nameTooLong
      else t.follow (l ++ [c]) cs

def start (path : String) : Location := if path.startsWith "/" then [] else Location.working

def components (path : String) : List String := path.splitOn "/"

/-- The components that lead to the directory which the last component is in. -/
def parents (cs : List String) : List String :=
  ((cs.reverse.dropWhile String.isEmpty).drop 1).reverse

def checkPath (path : String) : Except FileError Unit :=
  if path.contains '\x00' then .error .nulInName
  else if path.isEmpty then .error .notFound
  else if maxPath < path.utf8ByteSize then .error .nameTooLong
  else .ok ()

def read (t : FileTree) (path : String) : Except FileError String := do
  checkPath path
  let l ← t.follow (start path) (components path)
  if (devices.lookup l).isSome then return ""
  match t.file? l with
  | some bytes =>
      match String.fromUTF8? bytes with
      | some s => .ok s
      | none => .error .notText
  | none => if t.isDirectory l then .error .isDirectory else .error .notFound

def put (t : FileTree) (l : Location) (bytes : ByteArray) : FileTree :=
  { t with files := (l, bytes) :: t.files.filter (·.1 != l) }

@[simp] theorem file?_put (t : FileTree) (l : Location) (bytes : ByteArray) :
    (t.put l bytes).file? l = some bytes := by
  simp [put, file?]

theorem file?_put_of_ne (t : FileTree) {l l' : Location} (bytes : ByteArray) (h : l' ≠ l) :
    (t.put l bytes).file? l' = t.file? l' := by
  have h' : (l' == l) = false := by simpa using h
  simp only [put, file?, List.lookup_cons, h']
  induction t.files with
  | nil => rfl
  | cons f fs ih =>
      obtain ⟨k, b⟩ := f
      by_cases hk : k = l
      · subst hk
        simpa [List.lookup_cons, h'] using ih
      · simp [List.lookup_cons, hk, ih]

/-- The location that a path to be written leads to. A path that ends with a slash names no file,
only a place in a directory. -/
def target (t : FileTree) (path : String) : Except FileError Location := do
  let cs := components path
  if path.endsWith "/" then
    let _ ← t.follow (start path) (parents cs ++ ["."])
    .error .isDirectory
  else t.follow (start path) cs

/-- The tree with another text in a file, which is made if need be. -/
def write (t : FileTree) (path text : String) : Except FileError FileTree := do
  checkPath path
  let l ← t.target path
  match devices.lookup l with
  | some .null => return t
  | some .full => if text.isEmpty then return t else .error .noSpace
  | some (.stream s) => return { t with shown := t.shown ++ [(s, text)] }
  | none => if t.isDirectory l then .error .isDirectory else return t.put l text.toUTF8

/-- The tree with the given files, each at the location that its path spells. -/
def ofFiles (files : List (String × ByteArray)) : FileTree :=
  let step (l : Location) (c : String) : Location :=
    if c = "" || c = "." then l else if c = ".." then l.dropLast else l ++ [c]
  files.foldl (fun t f => t.put ((components f.1).foldl step (start f.1)) f.2) { files := [] }

/-- Access to the files of a tree that is kept as a state. -/
def access : FileAccess (StateM FileTree) where
  read path := return (← get).read path
  write path text := do
    match (← get).write path text with
    | .ok t => set t; return .ok ()
    | .error e => return .error e

end FileTree

end MailTemplate
