import MailTemplate.Files.Tree
import MailTemplate.Proofs.Results
import Mathlib

/-!
# Writing to a tree of files

What is written to a file is read from it again, and no other file changes (`FileTree.write_eq_ok`).
-/

namespace MailTemplate.FileTree

variable {t t' : FileTree} {l k : Location} {bytes : ByteArray} {cs : List String} {path text : String}

theorem fromUTF8?_toUTF8 (text : String) : String.fromUTF8? text.toUTF8 = some text :=
  dif_pos text.isValidUTF8

/-! ## Following paths -/

theorem isDirectory_put (h : t.isDirectory k = true) : (t.put l bytes).isDirectory k = true := by
  simp only [isDirectory, Bool.or_eq_true, List.any_eq_true, Bool.and_eq_true, decide_eq_true_eq] at h ⊢
  refine h.imp_right ?_
  rintro ⟨f, hf, hbelow⟩
  by_cases hl : f.1 = l
  · exact ⟨(l, bytes), List.mem_cons_self, hl ▸ hbelow⟩
  · exact ⟨f, List.mem_cons_of_mem _ (List.mem_filter.2 ⟨hf, by simpa using hl⟩), hbelow⟩

theorem isOccupied_put (h : k ≠ l) : (t.put l bytes).isOccupied k = t.isOccupied k := by
  rw [isOccupied, isOccupied, file?_put_of_ne t bytes h]

/-- A path that leads to a place with no directory leads there still when a file is put in that place. -/
theorem follow_put (hl : t.isDirectory l = false) (h : t.follow k cs = .ok l) :
    (t.put l bytes).follow k cs = .ok l := by
  induction cs generalizing k with
  | nil => exact h
  | cons c cs ih =>
      rw [follow] at h ⊢
      -- The directories on the way are other places.
      split at h
      · cases h
      · rename_i hoccupied
        split at h
        · cases h
        · rename_i hdirectory
          rw [Bool.not_eq_true', Bool.not_eq_false] at hdirectory
          have hk : k ≠ l := by
            rintro rfl
            rw [hl] at hdirectory
            cases hdirectory
          rw [isOccupied_put hk, isDirectory_put hdirectory, if_neg hoccupied, if_neg (by simp)]
          split_ifs at h ⊢
          · exact ih h
          · exact ih h
          · exact ih h

/-! ## Reading what was written -/

theorem target_follows (h : t.target path = .ok l) : t.follow (start path) (components path) = .ok l := by
  rw [target] at h
  split at h
  · cases hfollow : t.follow (start path) (parents (components path) ++ ["."]) <;> rw [hfollow] at h <;> cases h
  · exact h

theorem read_put (hpath : checkPath path = .ok ()) (hfollow : t.follow (start path) (components path) = .ok l)
    (hdevice : devices.lookup l = none) (hl : t.isDirectory l = false) :
    (t.put l text.toUTF8).read path = .ok text := by
  have hfollow' : (t.put l text.toUTF8).follow (start path) (components path) = .ok l := follow_put hl hfollow
  rw [read, hpath, hfollow']
  simp only [bind, Except.bind, hdevice, file?_put, fromUTF8?_toUTF8]
  rfl

/-- A stream shows what is written to it behind what it has shown before; the other one shows nothing more. -/
theorem shownOn_write (t : FileTree) (s s' : Stream) (text : String) :
    ({ t with shown := t.shown ++ [(s, text)] } : FileTree).shownOn s' =
      if s' = s then t.shownOn s' ++ text else t.shownOn s' := by
  by_cases hs : s' = s
  · subst hs
    simp [shownOn, String.join_append]
  · have hne : s ≠ s' := Ne.symm hs
    simp [shownOn, hs, hne]

/-- A text that is written is at one place: it is kept in a file and read from there, and no other file changes, or
it is shown on a stream. Other devices keep nothing. -/
theorem write_eq_ok (h : t.write path text = .ok t') :
    ∃ l, t.target path = .ok l ∧
      ((devices.lookup l = none ∧ t'.read path = .ok text ∧ t'.file? l = some text.toUTF8 ∧
          (∀ k ≠ l, t'.file? k = t.file? k) ∧ t'.shown = t.shown) ∨
        (∃ s, devices.lookup l = some (.stream s) ∧ t' = { t with shown := t.shown ++ [(s, text)] }) ∨
        ∃ d, devices.lookup l = some d ∧ (∀ s, d ≠ .stream s) ∧ t' = t) := by
  rw [write, bind_eq_ok_iff] at h
  obtain ⟨⟨⟩, hpath, h⟩ := h
  obtain ⟨l, htarget, h⟩ := bind_eq_ok_iff.1 h
  refine ⟨l, htarget, ?_⟩
  cases hdevice : devices.lookup l with
  | some d =>
      rw [hdevice] at h
      cases d with
      | null =>
          cases h
          exact .inr (.inr ⟨.null, rfl, nofun, rfl⟩)
      | full =>
          simp only at h
          split at h <;> cases h
          exact .inr (.inr ⟨.full, rfl, nofun, rfl⟩)
      | stream s =>
          cases h
          exact .inr (.inl ⟨s, rfl, rfl⟩)
  | none =>
      rw [hdevice] at h
      simp only at h
      split at h
      · cases h
      · rename_i hdirectory
        cases h
        rw [Bool.not_eq_true] at hdirectory
        refine .inl ⟨rfl, ?_, file?_put t l _, fun k hk => file?_put_of_ne t _ hk, rfl⟩
        exact read_put hpath (target_follows htarget) hdevice hdirectory

end MailTemplate.FileTree
