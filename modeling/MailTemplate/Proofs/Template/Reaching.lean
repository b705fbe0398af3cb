import MailTemplate.Proofs.Template.Failures
import MailTemplate.Proofs.Template.Paths

/-!
# References in a line

Where in a line a reference can stand: the fragments before it are read without it (`Fragment.Reaches`). There a
reference and the expression of its path are read alike (`Fragment.ofLine_braced`), and every reference of a line
stands at such a place (`Fragment.exists_reaches`).
-/

namespace MailTemplate.Fragment

open Text

/-! ## Reading fragments -/

section Steps

variable (reversed cs : List Char) {c : Char}

theorem readFrom_escape : readFrom reversed ('@' :: '@' :: cs) = readFrom ('@' :: reversed) cs := by
  rw [readFrom]

theorem readFrom_char (hc : c ≠ '@') : readFrom reversed (c :: cs) = readFrom (c :: reversed) cs := by
  rw [readFrom]
  all_goals simp [hc]

theorem readFrom_marker (hmarker : c ≠ '@') (hbrace : c ≠ '{') (hc : isWordStart c = false) :
    readFrom reversed ('@' :: c :: cs) = readFrom ('@' :: reversed) (c :: cs) := by
  rw [readFrom]
  · simp [hc]
  all_goals simp [hmarker, hbrace]

theorem readFrom_reference (hc : isWordStart c = true) :
    readFrom reversed ('@' :: c :: cs) = (readFrom [] (readPath (c :: cs)).2).map
      fun fs => flush reversed ++ reference (readPath (c :: cs)).1 :: fs := by
  have hmarker : c ≠ '@' := by rintro rfl; revert hc; decide
  have hbrace : c ≠ '{' := by rintro rfl; revert hc; decide
  rw [readFrom]
  · simp only [hc, if_true]
    cases readFrom [] (readPath (c :: cs)).2 <;> rfl
  all_goals simp [hmarker, hbrace]

theorem readFrom_path {path : List String} (h : IsPath path) {rest : List Char} (hrest : EndsPath rest) :
    readFrom reversed ('@' :: (pathChars path ++ rest)) =
      (readFrom [] rest).map fun fs => flush reversed ++ reference path :: fs := by
  obtain ⟨c, cs, hcs, hc⟩ := h.exists_cons
  have hread := readPath_path h hrest
  rw [hcs, List.cons_append] at hread ⊢
  rw [readFrom_reference reversed _ hc, hread]

variable {cs}

/-- An expression in braces, or the error that nothing is in them. -/
theorem readFrom_block {body rest : List Char} (h : closing? 0 none cs = some (body, rest)) :
    readFrom reversed ('@' :: '{' :: cs) = if allBlank body then .error .emptyExpression
      else (readFrom [] rest).map fun fs => flush reversed ++ expression (String.ofList (trim body)) :: fs := by
  have hempty : (trim body).isEmpty = allBlank body := by
    rw [Bool.eq_iff_iff, List.isEmpty_iff, trim_eq_nil_iff]
  rw [readFrom]
  split
  · rename_i hclosing
    cases h.symm.trans hclosing
  · rename_i hclosing
    cases h.symm.trans hclosing
    simp only [hempty]
    split
    · rfl
    · cases readFrom [] rest <;> rfl

theorem readFrom_expression {body rest : List Char} (h : closing? 0 none cs = some (body, rest))
    (hbody : allBlank body = false) :
    readFrom reversed ('@' :: '{' :: cs) =
      (readFrom [] rest).map fun fs => flush reversed ++ expression (String.ofList (trim body)) :: fs := by
  rw [readFrom_block reversed h, hbody, if_neg Bool.false_ne_true]

end Steps

/-! ## Places in a line -/

/-- `Reaches cs rest`: reading the fragments of `cs` comes to `rest`, with no fragment begun that goes on there but
for literal text. -/
inductive Reaches : List Char → List Char → Prop
  | here {cs} : Reaches cs cs
  | escape {cs rest} : Reaches cs rest → Reaches ('@' :: '@' :: cs) rest
  | expression {cs body behind rest} : closing? 0 none cs = some (body, behind) → allBlank body = false →
      Reaches behind rest → Reaches ('@' :: '{' :: cs) rest
  | reference {c cs rest} : isWordStart c = true → Reaches (readPath (c :: cs)).2 rest →
      Reaches ('@' :: c :: cs) rest
  | marker {c cs rest} : c ≠ '@' → c ≠ '{' → isWordStart c = false → Reaches (c :: cs) rest →
      Reaches ('@' :: c :: cs) rest
  | char {c cs rest} : c ≠ '@' → Reaches cs rest → Reaches (c :: cs) rest

namespace Reaches

variable {cs ds : List Char}

theorem of_char {c : Char} (h : Reaches (c :: cs) ('@' :: ds)) (hc : c ≠ '@') : Reaches cs ('@' :: ds) := by
  cases h with
  | char _ h => exact h
  | _ => exact absurd rfl hc

/-- Behind an expression that is the first fragment of a line but for literal text. -/
theorem of_expression {gap before after : List Char} (h : Reaches (gap ++ '@' :: '{' :: cs) ('@' :: ds))
    (hgap : '@' ∉ gap) (hds : ∀ es, ds ≠ '{' :: es) (hclosing : closing? 0 none cs = some (before, after)) :
    Reaches after ('@' :: ds) := by
  induction gap with
  | nil =>
      cases h with
      | here => exact absurd rfl (hds cs)
      | expression hbody _ h =>
          rw [hclosing] at hbody
          cases hbody
          exact h
      | reference hc => cases hc
      | marker _ hbrace => exact absurd rfl hbrace
      | char hc => exact absurd rfl hc
  | cons c gap ih =>
      rw [List.mem_cons, not_or] at hgap
      exact ih (h.of_char (Ne.symm hgap.1)) hgap.2

end Reaches

theorem endsPath_marker {front cs : List Char} (h : EndsPath (front ++ '@' :: cs)) (ds : List Char) :
    EndsPath (front ++ '@' :: ds) :=
  h.like (.of_barrier (by decide) front cs ds)

/-- What is read of the text before an `@` does not depend on what is behind it. -/
def ReadsApart (front : List Char) : Prop :=
  ∀ reversed, ∃ fs reversed', ∀ cs,
    readFrom reversed (front ++ '@' :: cs) = (readFrom reversed' ('@' :: cs)).map (fs ++ ·)

namespace ReadsApart

variable {first front : List Char}

theorem nil : ReadsApart [] := by
  refine fun reversed => ⟨[], reversed, fun cs => ?_⟩
  simp only [List.nil_append]
  cases readFrom reversed ('@' :: cs) <;> rfl

theorem literal {c : Char} (h : ReadsApart front)
    (hfirst : ∀ reversed cs, readFrom reversed (first ++ (front ++ '@' :: cs)) =
      readFrom (c :: reversed) (front ++ '@' :: cs)) : ReadsApart (first ++ front) := by
  intro reversed
  obtain ⟨fs, reversed', hfs⟩ := h (c :: reversed)
  exact ⟨fs, reversed', fun cs => by rw [List.append_assoc, hfirst, hfs]⟩

theorem fragment {f : Fragment} (h : ReadsApart front)
    (hfirst : ∀ reversed cs, readFrom reversed (first ++ (front ++ '@' :: cs)) =
      (readFrom [] (front ++ '@' :: cs)).map fun fs => flush reversed ++ f :: fs) :
    ReadsApart (first ++ front) := by
  intro reversed
  obtain ⟨fs, reversed', hfs⟩ := h []
  refine ⟨flush reversed ++ f :: fs, reversed', fun cs => ?_⟩
  rw [List.append_assoc, hfirst, hfs]
  cases readFrom reversed' ('@' :: cs) <;> simp [Except.map]

end ReadsApart

theorem Reaches.reads {cs ds : List Char} (h : Reaches cs ('@' :: ds)) :
    ∃ front, cs = front ++ '@' :: ds ∧ ReadsApart front := by
  generalize hrest : '@' :: ds = rest at h
  induction h with
  | here => exact ⟨[], rfl, .nil⟩
  | escape _ ih =>
      obtain ⟨front, rfl, hread⟩ := ih hrest
      exact ⟨['@', '@'] ++ front, rfl, hread.literal fun reversed _ => readFrom_escape reversed _⟩
  | @expression cs body behind _ hclosing hbody _ ih =>
      obtain ⟨front, rfl, hread⟩ := ih hrest
      refine ⟨'@' :: '{' :: (body ++ ['}']) ++ front, ?_,
        hread.fragment (f := .expression (String.ofList (trim body))) fun reversed es => ?_⟩
      · rw [closing?_eq hclosing]
        simp
      · have hsame := closing?_behind hclosing (front ++ '@' :: es)
        simpa using readFrom_expression reversed hsame hbody
  | @reference c cs _ hc _ ih =>
      obtain ⟨front, hfront, hread⟩ := ih hrest
      obtain ⟨hpath, hcs, hends⟩ := @readPath_takes (c :: cs) (by simpa using hc)
      generalize (readPath (c :: cs)).1 = path at hpath hcs
      subst hrest
      rw [hfront] at hcs hends
      refine ⟨'@' :: pathChars path ++ front, by rw [hcs]; simp,
        hread.fragment (f := .reference path) fun reversed es => ?_⟩
      exact readFrom_path reversed hpath (endsPath_marker hends es)
  | @marker c cs _ hmarker hbrace hc _ ih =>
      obtain ⟨front, hfront, hread⟩ := ih hrest
      subst hrest
      cases front with
      | nil => exact absurd (List.cons.inj hfront).1 hmarker
      | cons d front =>
          obtain ⟨rfl, rfl⟩ := List.cons.inj hfront
          exact ⟨['@'] ++ c :: front, rfl,
            hread.literal fun reversed _ => readFrom_marker reversed _ hmarker hbrace hc⟩
  | @char c cs _ hc _ ih =>
      obtain ⟨front, rfl, hread⟩ := ih hrest
      exact ⟨[c] ++ front, rfl, hread.literal fun reversed _ => readFrom_char reversed _ hc⟩

/-! ## A reference and the expression of its path -/

theorem not_isBlank_of_mem_path {path : List String} (h : IsPath path) :
    ∀ c ∈ pathChars path, isBlank c = false := by
  intro c hc
  rcases h.chars c hc with hc | rfl
  · exact isBlank_of_isWordChar hc
  · rfl

theorem trim_path {path : List String} (h : IsPath path) : trim (pathChars path) = pathChars path := by
  have hblank := not_isBlank_of_mem_path h
  have hstart : trimStart (pathChars path) = pathChars path := by
    obtain ⟨c, cs, hcs, hc⟩ := h.exists_cons
    rw [hcs, trimStart_cons (isBlank_of_isWordChar (isWordChar_of_isWordStart hc))]
  have hend : trimEnd (pathChars path ++ []) = pathChars path ++ trimEnd [] :=
    trimEnd_append fun d hd => hblank d (List.mem_of_getLast? hd)
  rw [List.append_nil] at hend
  rw [trim, hstart, hend]
  exact List.append_nil _

theorem closing?_path {path : List String} (h : IsPath path) (rest : List Char) :
    closing? 0 none (pathChars path ++ '}' :: rest) = some (pathChars path, rest) := by
  have hplain : ∀ c ∈ pathChars path, IsPlain c := fun c hc => isPlain_of_isWordChar (h.chars c hc)
  rw [closing?_plain hplain, closing?_close]
  simp [passing]

theorem readFrom_braced {path : List String} (h : IsPath path) (reversed rest : List Char) :
    readFrom reversed ('@' :: '{' :: (pathChars path ++ '}' :: rest)) =
      (readFrom [] rest).map fun fs => flush reversed ++ expression (".".intercalate path) :: fs := by
  have hblank : allBlank (pathChars path) = false := by
    obtain ⟨c, cs, hcs, _⟩ := h.exists_cons
    have hc := not_isBlank_of_mem_path h c (by rw [hcs]; exact List.mem_cons_self)
    simp [hcs, allBlank, hc]
  have htext : String.ofList (trim (pathChars path)) = ".".intercalate path := by
    rw [trim_path h, ← toList_path, String.ofList_toList]
  rw [readFrom_expression reversed (closing?_path h rest) hblank, htext]

/-- A line with a reference, and the same line with the expression of its path in its place. -/
theorem ofLine_braced {cs rest : List Char} {path : List String} {fs : List Fragment} (h : ofLine cs = .ok fs)
    (hpath : IsPath path) (hrest : EndsPath rest) (hreaches : Reaches cs ('@' :: (pathChars path ++ rest))) :
    ∃ front before behind, cs = front ++ '@' :: (pathChars path ++ rest) ∧
      fs = before ++ reference path :: behind ∧
      ofLine (front ++ '@' :: '{' :: (pathChars path ++ '}' :: rest)) =
        .ok (before ++ expression (".".intercalate path) :: behind) := by
  obtain ⟨front, rfl, hread⟩ := hreaches.reads
  obtain ⟨before, reversed, hbefore⟩ := hread []
  rw [ofLine, hbefore, readFrom_path reversed hpath hrest] at h
  obtain ⟨more, hmore, rfl⟩ := map_eq_ok_iff.1 h
  obtain ⟨behind, hbehind, rfl⟩ := map_eq_ok_iff.1 hmore
  refine ⟨front, before ++ flush reversed, behind, rfl, by simp, ?_⟩
  rw [ofLine, hbefore, readFrom_braced hpath, hbehind]
  simp [Except.map]

/-! ## Where references stand -/

theorem reference_notMem_flush (path : List String) (reversed : List Char) :
    reference path ∉ flush reversed := by
  unfold flush
  split <;> simp

theorem reference_mem_append {path : List String} {reversed : List Char} {f : Fragment} {fs : List Fragment}
    (h : reference path ∈ flush reversed ++ f :: fs) : reference path = f ∨ reference path ∈ fs :=
  List.mem_cons.1 ((List.mem_append.1 h).resolve_left (reference_notMem_flush path reversed))

/-- Every reference of a line stands at a place that its reading comes to. -/
theorem exists_reaches {cs : List Char} {fs : List Fragment} (h : ofLine cs = .ok fs) {path : List String}
    (hpath : reference path ∈ fs) :
    ∃ rest, IsPath path ∧ EndsPath rest ∧ Reaches cs ('@' :: (pathChars path ++ rest)) := by
  unfold ofLine at h
  generalize [] = reversed at h
  fun_induction readFrom reversed cs generalizing fs with
  | case1 =>
      cases h
      exact absurd hpath (reference_notMem_flush _ _)
  | case2 _ _ ih =>
      obtain ⟨rest, hpath, hrest, hreaches⟩ := ih hpath h
      exact ⟨rest, hpath, hrest, .escape hreaches⟩
  | case3 | case4 | case5 | case7 => cases h
  | case6 =>
      rename_i body _ hclosing _ _ hbody _ hread ih
      cases h
      rcases reference_mem_append hpath with hpath | hpath
      · cases hpath
      · obtain ⟨rest, hpath, hrest, hreaches⟩ := ih hpath hread
        have hfilled : allBlank body = false := by
          rwa [← Bool.not_eq_true, ← trim_eq_nil_iff, ← List.isEmpty_iff]
        exact ⟨rest, hpath, hrest, .expression hclosing hfilled hreaches⟩
  | case8 =>
      rename_i hc _ _ hread ih
      cases h
      rcases reference_mem_append hpath with hpath | hpath
      · cases hpath
        obtain ⟨hpath, hcs, hrest⟩ := @readPath_takes (_ :: _) (by simpa using hc)
        refine ⟨_, hpath, hrest, ?_⟩
        rw [← hcs]
        exact .here
      · obtain ⟨rest, hpath, hrest, hreaches⟩ := ih hpath hread
        exact ⟨rest, hpath, hrest, .reference hc hreaches⟩
  | case9 _ _ _ hmarker hbrace hc ih =>
      obtain ⟨rest, hpath, hrest, hreaches⟩ := ih hpath h
      exact ⟨rest, hpath, hrest, .marker hmarker hbrace (by simpa using hc) hreaches⟩
  | case10 _ c cs _ _ hlone ih =>
      by_cases hc : c = '@'
      · -- An `@` at the end of the line is literal.
        cases cs with
        | nil =>
            rw [readFrom] at h
            cases h
            exact absurd hpath (reference_notMem_flush _ _)
        | cons d ds => exact (hlone d ds hc rfl).elim
      · obtain ⟨rest, hpath, hrest, hreaches⟩ := ih hpath h
        exact ⟨rest, hpath, hrest, .char hc hreaches⟩

end MailTemplate.Fragment
