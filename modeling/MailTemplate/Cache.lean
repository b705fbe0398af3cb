import MailTemplate.Digest.Sha256
import MailTemplate.Program

/-!
# Compiled templates kept for later

Programs are kept under the digest of their source, so that a source is compiled once. What fails to
compile is not kept.
-/

namespace MailTemplate

/-- A program and the number of its compilation, which tells two compilations apart. -/
structure Compiled where
  program : Program
  serial : Nat

structure ProgramCache where
  entries : List (String × Compiled)
  /-- The number of the next compilation. -/
  next : Nat

namespace ProgramCache

def empty : ProgramCache := ⟨[], 0⟩

def key (source : String) : String := Digest.sha256Hex source

def size (cache : ProgramCache) : Nat := cache.entries.length

def isEmpty (cache : ProgramCache) : Bool := cache.entries.isEmpty

/-- Forgets all programs; compilations are still counted on. -/
def clear (cache : ProgramCache) : ProgramCache := { cache with entries := [] }

/-- The program of a source, compiled now unless it is kept. -/
def getOrCompile (cache : ProgramCache) (source : String) :
    Except SyntaxError Compiled × ProgramCache :=
  match cache.entries.lookup (key source) with
  | some compiled => (.ok compiled, cache)
  | none =>
      match Program.ofSource source with
      | .error e => (.error e, cache)
      | .ok program =>
          let compiled := ⟨program, cache.next⟩
          (.ok compiled, ⟨(key source, compiled) :: cache.entries, cache.next + 1⟩)

end ProgramCache

end MailTemplate
