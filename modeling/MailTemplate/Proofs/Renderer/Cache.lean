import MailTemplate.Cache
import MailTemplate.Proofs.Value.Presence
import Mathlib

/-!
# Lookups in a cache

A lookup of a source gives its program or the error of compiling it, as long as no other source in the cache has
the same key, and what is compiled is held from then on (`Holds.getOrCompile`). A program keeps the number of its
compilation for as long as it is held (`lookup_getOrCompile`), and what is compiled once the cache has been cleared
has later numbers than all that it held (`numberedFrom_clear`).
-/

namespace MailTemplate.ProgramCache

variable {cache : ProgramCache} {held : List String} {source : String} {compiled : Compiled} {n : Nat}

/-! ## What a cache holds -/

/-- The entry is the program of the source. -/
structure Stores (source : String) (entry : String × Compiled) : Prop where
  key : entry.1 = key source
  program : Program.ofSource source = .ok entry.2.program

/-- The cache holds the programs of the sources in `held`, each of them once. -/
structure Holds (held : List String) (cache : ProgramCache) : Prop where
  nodup : held.Nodup
  entries : List.Forall₂ Stores held cache.entries

theorem holds_empty : Holds [] empty := ⟨.nil, .nil⟩

theorem holds_clear : Holds [] cache.clear := ⟨.nil, .nil⟩

theorem Holds.size_eq (h : cache.Holds held) : cache.size = held.toFinset.card := by
  rw [List.toFinset_card_of_nodup h.nodup, size, h.entries.length_eq]

theorem lookup_of_stores {entries : List (String × Compiled)} (h : List.Forall₂ Stores held entries)
    (hkey : ∀ s ∈ held, key s = key source → s = source) :
    (source ∉ held ∧ entries.lookup (key source) = none) ∨
      ∃ compiled, source ∈ held ∧ entries.lookup (key source) = some compiled ∧
        Program.ofSource source = .ok compiled.program := by
  induction h with
  | nil => exact .inl ⟨List.not_mem_nil, rfl⟩
  | @cons s entry held entries hentry _ ih =>
      obtain ⟨hs, hheld⟩ := List.forall_mem_cons.1 hkey
      obtain ⟨k, compiled⟩ := entry
      obtain rfl : k = key s := hentry.key
      by_cases hsource : s = source
      · subst hsource
        refine .inr ⟨compiled, List.mem_cons_self, ?_, hentry.program⟩
        rw [List.lookup_cons, beq_self_eq_true]
      · have hne : (key source == key s) = false := beq_eq_false_iff_ne.2 fun he => hsource (hs he.symm)
        simp only [List.lookup_cons, hne, List.mem_cons, Ne.symm hsource, false_or]
        exact ih hheld

/-- The sources that are held once another source has been looked up. -/
def hold (held : List String) (source : String) : List String :=
  match Program.ofSource source with
  | .ok _ => held.insert source
  | .error _ => held

theorem mem_hold {s : String} :
    s ∈ hold held source ↔ s ∈ held ∨ s = source ∧ ∃ p, Program.ofSource source = .ok p := by
  unfold hold
  cases Program.ofSource source with
  | ok p => simp [List.mem_insert_iff, or_comm]
  | error e => simp

/-- A lookup gives what compiling gives, whatever the cache holds. -/
theorem Holds.getOrCompile (h : cache.Holds held) (hkey : ∀ s ∈ held, key s = key source → s = source) :
    (cache.getOrCompile source).1.map Compiled.program = Program.ofSource source ∧
      (cache.getOrCompile source).2.Holds (hold held source) := by
  unfold ProgramCache.getOrCompile hold
  rcases lookup_of_stores h.entries hkey with ⟨hmiss, hlookup⟩ | ⟨compiled, hmem, hlookup, hprogram⟩
  · rw [hlookup]
    cases hsource : Program.ofSource source with
    | error e => exact ⟨rfl, h⟩
    | ok p =>
        refine ⟨rfl, ?_⟩
        simp only [List.insert_of_not_mem hmiss]
        exact ⟨List.nodup_cons.2 ⟨hmiss, h.nodup⟩, .cons ⟨rfl, hsource⟩ h.entries⟩
  · rw [hlookup, hprogram]
    simp only [List.insert_of_mem hmem]
    exact ⟨rfl, h⟩

/-! ## Numbers of compilations -/

/-- The programs of the cache were compiled at `n` or later, and before the next one. -/
structure NumberedFrom (n : Nat) (cache : ProgramCache) : Prop where
  le : n ≤ cache.next
  entries : ∀ entry ∈ cache.entries, n ≤ entry.2.serial ∧ entry.2.serial < cache.next

theorem numberedFrom_empty : NumberedFrom 0 empty := ⟨Nat.le_refl _, nofun⟩

/-- What is compiled once a cache has been cleared is compiled later than all that it held. -/
theorem numberedFrom_clear : NumberedFrom cache.next cache.clear := ⟨Nat.le_refl _, nofun⟩

theorem NumberedFrom.clear (h : cache.NumberedFrom n) : cache.clear.NumberedFrom n := ⟨h.le, nofun⟩

theorem next_le_getOrCompile : cache.next ≤ (cache.getOrCompile source).2.next := by
  unfold getOrCompile
  split
  · exact Nat.le_refl _
  · split
    · exact Nat.le_refl _
    · exact Nat.le_succ _

theorem NumberedFrom.getOrCompile (h : cache.NumberedFrom n) :
    (cache.getOrCompile source).2.NumberedFrom n := by
  unfold ProgramCache.getOrCompile
  split
  · exact h
  · split
    · exact h
    · refine ⟨Nat.le_succ_of_le h.le, List.forall_mem_cons.2 ⟨⟨h.le, Nat.lt_succ_self _⟩, ?_⟩⟩
      intro entry hentry
      exact ⟨(h.entries entry hentry).1, Nat.lt_succ_of_lt (h.entries entry hentry).2⟩

/-- A source that has been looked up is held. -/
theorem lookup_of_getOrCompile (h : (cache.getOrCompile source).1 = .ok compiled) :
    (cache.getOrCompile source).2.entries.lookup (key source) = some compiled := by
  unfold getOrCompile at h ⊢
  split at h
  · rename_i hlookup
    cases h
    exact hlookup
  · split at h
    · cases h
    · cases h
      simp only [List.lookup_cons, beq_self_eq_true]

/-- What is held stays as it is when a source is looked up. -/
theorem lookup_getOrCompile {k : String} (h : cache.entries.lookup k = some compiled) (source : String) :
    (cache.getOrCompile source).2.entries.lookup k = some compiled := by
  unfold getOrCompile
  split
  · exact h
  · rename_i hmiss
    split
    · exact h
    · have hne : (k == key source) = false := by
        rw [beq_eq_false_iff_ne]
        rintro rfl
        rw [hmiss] at h
        cases h
      simp only [List.lookup_cons, hne]
      exact h

theorem getOrCompile_of_lookup (h : cache.entries.lookup (key source) = some compiled) :
    (cache.getOrCompile source).1 = .ok compiled := by
  unfold getOrCompile
  rw [h]

theorem NumberedFrom.serial_bounds (h : cache.NumberedFrom n)
    (hok : (cache.getOrCompile source).1 = .ok compiled) :
    n ≤ compiled.serial ∧ compiled.serial < (cache.getOrCompile source).2.next :=
  h.getOrCompile.entries _ (Value.mem_of_lookup (lookup_of_getOrCompile hok))

end MailTemplate.ProgramCache
