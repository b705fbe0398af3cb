import MailTemplate.Text.Blank
import Mathlib.Data.List.DropRight
import Mathlib.Data.List.TakeWhile

/-!
# Trimmed text

Trimming leaves nothing of blanks only, and keeps the first character that is not blank.
-/

namespace MailTemplate.Text

theorem trimStart_eq_nil_iff {cs : List Char} : trimStart cs = [] ↔ allBlank cs = true := by
  simp [trimStart, allBlank, List.dropWhile_eq_nil_iff]

theorem not_blank_of_trimStart {c : Char} {cs rest : List Char} (h : trimStart cs = c :: rest) :
    isBlank c = false := by
  have := List.head?_dropWhile_not isBlank cs
  rw [trimStart] at h
  rw [h] at this
  simpa using this

theorem trimStart_cons {c : Char} (hc : isBlank c = false) (cs : List Char) :
    trimStart (c :: cs) = c :: cs := by
  simp [trimStart, hc]

theorem trimEnd_cons {c : Char} (hc : isBlank c = false) (cs : List Char) :
    trimEnd (c :: cs) = c :: trimEnd cs := by
  simp only [trimEnd, List.reverse_cons, List.dropWhile_append]
  split
  · rename_i hcs
    rw [List.isEmpty_iff.1 hcs]
    simp [hc]
  · simp

theorem trim_of_trimStart {c : Char} {cs rest : List Char} (h : trimStart cs = c :: rest) :
    trim cs = c :: trimEnd rest := by
  rw [trim, h, trimEnd_cons (not_blank_of_trimStart h)]

theorem trim_eq_nil_iff {cs : List Char} : trim cs = [] ↔ allBlank cs = true := by
  rw [← trimStart_eq_nil_iff]
  cases h : trimStart cs with
  | nil => simp [trim, h, trimEnd]
  | cons c rest => simp [trim_of_trimStart h]

theorem trim_trim (cs : List Char) : trim (trim cs) = trim cs := by
  have hend (cs : List Char) : trimEnd (trimEnd cs) = trimEnd cs := by
    rw [trimEnd, trimEnd, List.reverse_reverse, List.dropWhile_idempotent]
  cases h : trimStart cs with
  | nil =>
      have hnil : trim cs = [] := by rw [trim, h]; rfl
      rw [hnil]
      rfl
  | cons c rest =>
      have hc := not_blank_of_trimStart h
      rw [trim_of_trimStart h, trim_of_trimStart (trimStart_cons hc _), hend]

end MailTemplate.Text
