import MailTemplate.Proofs.Template.Reaching
import MailTemplate.Proofs.Text.Escaping

/-!
# Fragments as they are written

The fragments of a line can be written down again, with every `@` of literal text doubled, and are read back from
what is written (`Fragment.ofLine_print`). Which lists are the fragments of a line is told by the fragments and by
what stands next to each other (`Fragment.exists_ofLine_iff`).
-/

namespace MailTemplate.Fragment

open Text

/-! ## The brace behind a trimmed text -/

theorem closing?_at_once {depth : Nat} {quote : Option Char} {cs rest : List Char}
    (h : closing? depth quote cs = some ([], rest)) : depth = 0 ∧ quote = none := by
  fun_cases closing? depth quote cs with
  | case4 => exact ⟨rfl, rfl⟩
  | _ =>
      rw [closing?.eq_def] at h
      simp_all

theorem not_blank_of_mem_quote (c : Char) :
    ∀ q ∈ (if c = '"' || c = '\'' then some c else none), isBlank q = false := by
  split
  · rename_i hmark
    rintro q ⟨⟩
    rw [Bool.or_eq_true, decide_eq_true_eq, decide_eq_true_eq] at hmark
    rcases hmark with rfl | rfl <;> rfl
  · rintro q ⟨⟩

/-- A blank before the closing brace does not matter: no string is open there, or it would still be open behind. -/
theorem closing?_dropBlank {depth : Nat} {quote : Option Char} {cs body rest : List Char} {b : Char}
    (hb : isBlank b = true) (hquote : ∀ q ∈ quote, isBlank q = false)
    (h : closing? depth quote cs = some (body ++ [b], rest)) :
    closing? depth quote (body ++ '}' :: rest) = some (body, rest) := by
  fun_induction closing? depth quote cs generalizing body rest with
  | case1 => cases h
  | case2 depth q c cs ih =>
      obtain ⟨⟨passed, _⟩, hr, he⟩ := Option.map_eq_some_iff.1 h
      cases body with
      | nil => cases he
      | cons _ body =>
          cases body with
          | nil =>
              cases he
              cases (closing?_at_once hr).2
          | cons _ body =>
              cases he
              simp [closing?, ih hquote hr]
  | case3 depth q c cs hc ih =>
      obtain ⟨⟨passed, _⟩, hr, he⟩ := Option.map_eq_some_iff.1 h
      cases body with
      | nil =>
          cases he
          have hne : b ≠ q := by
            rintro rfl
            simp [hquote b rfl] at hb
          cases (if_neg hne).symm.trans (closing?_at_once hr).2
      | cons _ body =>
          cases he
          have hback : c ≠ '\\' := by
            rintro rfl
            cases cs with
            | nil => simp [closing?] at hr
            | cons d cs => exact hc d cs rfl rfl
          have hnext : ∀ p ∈ (if c = q then none else some q), isBlank p = false := by
            split
            · rintro p ⟨⟩
            · exact hquote
          rw [List.cons_append, closing?.eq_3 _ _ _ _ fun _ _ he => absurd he hback, ih hnext hr]
          rfl
  | case4 => simp at h
  | case5 cs depth ih =>
      obtain ⟨⟨passed, _⟩, hr, he⟩ := Option.map_eq_some_iff.1 h
      cases body with
      | nil =>
          cases he
          cases hb
      | cons _ body =>
          cases he
          rw [List.cons_append, closing?_inner, ih hquote hr]
          rfl
  | case6 depth c cs hc =>
      rename_i ih
      obtain ⟨⟨passed, _⟩, hr, he⟩ := Option.map_eq_some_iff.1 h
      cases body with
      | nil =>
          cases he
          obtain rfl : depth = 0 := (if_neg (isPlain_of_isBlank hb).1).symm.trans (closing?_at_once hr).1
          exact closing?_close _
      | cons _ body =>
          cases he
          rw [List.cons_append, closing?_cons hc, ih (not_blank_of_mem_quote c) hr]
          rfl

/-- The blanks around an expression do not matter for the brace that closes it. -/
theorem closing?_trim {cs body rest : List Char} (h : closing? 0 none cs = some (body, rest)) :
    closing? 0 none (trim body ++ '}' :: rest) = some (trim body, rest) := by
  have hstart : closing? 0 none (trimStart body ++ '}' :: rest) = some (trimStart body, rest) := by
    have hblank : ∀ c ∈ leadingBlanks body, IsPlain c := fun c hc =>
      isPlain_of_isBlank (isBlank_of_mem_leadingBlanks hc)
    have hbody := closing?_behind h rest
    rw [← leadingBlanks_append_trimStart body, List.append_assoc, closing?_plain hblank] at hbody
    obtain ⟨⟨passed, _⟩, hr, he⟩ := Option.map_eq_some_iff.1 hbody
    obtain ⟨hpassed, rfl⟩ := Prod.mk.inj he
    obtain rfl : passed = trimStart body := List.append_cancel_left hpassed
    exact hr
  rw [trim]
  generalize trimStart body = body at hstart
  induction body using List.reverseRecOn with
  | nil => exact hstart
  | append_singleton body b ih =>
      by_cases hb : isBlank b = true
      · have hend : trimEnd (body ++ [b]) = trimEnd body := by simp [trimEnd, hb]
        rw [hend]
        refine ih (closing?_dropBlank hb ?_ hstart)
        rintro q ⟨⟩
      · have hend : trimEnd (body ++ [b]) = body ++ [b] := by simp [trimEnd, hb]
        rw [hend]
        exact hstart

/-! ## Writing fragments -/

/-- A fragment as it is written in a line. -/
def print : Fragment → List Char
  | literal text => escapeChars text.toList
  | reference path => '@' :: pathChars path
  | expression text => '@' :: '{' :: (text.toList ++ ['}'])

def printAll (fs : List Fragment) : List Char := fs.flatMap print

def isLiteral : Fragment → Bool
  | literal _ => true
  | reference _ | expression _ => false

/-- Whether a line can hold the fragment: an expression has no blanks around it, and ends where it is closed. -/
inductive Proper : Fragment → Prop
  | literal {text} : text ≠ "" → Proper (literal text)
  | reference {path} : IsPath path → Proper (reference path)
  | expression {text} : text ≠ "" → trim text.toList = text.toList →
      closing? 0 none (text.toList ++ ['}']) = some (text.toList, []) → Proper (expression text)

/-- Whether the second fragment can stand behind the first one. -/
def Adjoins : Fragment → Fragment → Prop
  | literal _, g => g.isLiteral = false
  | reference _, literal text => EndsPath text.toList
  | reference _, _ | expression _, _ => True

/-- Whether the fragments can be those of a line. -/
structure IsLine (fs : List Fragment) : Prop where
  proper : ∀ f ∈ fs, f.Proper
  adjoins : fs.IsChain Adjoins

theorem beginsLike_escapeChars (cs : List Char) : BeginsLike cs (escapeChars cs) := by
  induction cs with
  | nil => exact .nil
  | cons c cs ih =>
      by_cases hc : c = '@'
      · subst hc
        exact .cons (by decide)
      · rw [escapeChars_cons hc]
        exact ih.cons_cons c

theorem endsPath_at (cs : List Char) : EndsPath ('@' :: cs) :=
  ⟨by rintro c ⟨⟩; rfl, by rintro d ds ⟨⟩⟩

namespace IsLine

variable {f : Fragment} {fs : List Fragment}

theorem nil : IsLine [] := ⟨List.forall_mem_nil _, .nil⟩

theorem cons (hf : f.Proper) (hadjoins : ∀ g ∈ fs.head?, Adjoins f g) (h : IsLine fs) : IsLine (f :: fs) :=
  ⟨List.forall_mem_cons.2 ⟨hf, h.proper⟩, List.isChain_cons.2 ⟨hadjoins, h.adjoins⟩⟩

theorem head (h : IsLine (f :: fs)) : f.Proper := (List.forall_mem_cons.1 h.proper).1

theorem adjoins_head (h : IsLine (f :: fs)) : ∀ g ∈ fs.head?, Adjoins f g := (List.isChain_cons.1 h.adjoins).1

theorem tail (h : IsLine (f :: fs)) : IsLine fs := ⟨(List.forall_mem_cons.1 h.proper).2, h.adjoins.tail⟩

/-- What is written begins with an `@`, unless literal text is first. -/
theorem head?_printAll (hfirst : ∀ f ∈ fs.head?, f.isLiteral = false) : ∀ c ∈ (printAll fs).head?, c = '@' := by
  cases fs with
  | nil => nofun
  | cons f fs =>
      cases f with
      | literal => cases hfirst _ rfl
      | reference | expression => rintro c ⟨⟩; rfl

theorem endsPath {path : List String} (h : IsLine (reference path :: fs)) : EndsPath (printAll fs) := by
  cases fs with
  | nil => exact ⟨nofun, nofun⟩
  | cons f fs =>
      have hadjoins : Adjoins (reference path) f := h.adjoins_head f rfl
      cases f with
      | literal text =>
          have htext : EndsPath (escapeChars text.toList) := EndsPath.like hadjoins (beginsLike_escapeChars _)
          refine htext.append fun c hc => ?_
          obtain rfl := head?_printAll h.tail.adjoins_head c hc
          exact ⟨rfl, by decide⟩
      | reference | expression => exact endsPath_at _

end IsLine

/-! ## Reading what is written -/

theorem readFrom_escaped (reversed cs rest : List Char) :
    readFrom reversed (escapeChars cs ++ rest) = readFrom (cs.reverse ++ reversed) rest := by
  induction cs generalizing reversed with
  | nil => rfl
  | cons c cs ih =>
      rw [List.reverse_cons, List.append_assoc, List.singleton_append, ← ih]
      by_cases hc : c = '@'
      · subst hc
        exact readFrom_escape reversed _
      · rw [escapeChars_cons hc]
        exact readFrom_char reversed _ hc

theorem flush_reverse {cs : List Char} (h : cs ≠ []) : flush cs.reverse = [literal (String.ofList cs)] := by
  rw [flush, List.reverse_reverse, if_neg (by simpa using h)]

theorem readFrom_printAll {fs : List Fragment} (h : IsLine fs) {reversed : List Char}
    (hfirst : reversed = [] ∨ ∀ f ∈ fs.head?, f.isLiteral = false) :
    readFrom reversed (printAll fs) = .ok (flush reversed ++ fs) := by
  induction fs generalizing reversed with
  | nil => rw [printAll, List.flatMap_nil, readFrom, List.append_nil]
  | cons f fs ih =>
      have hread : readFrom [] (printAll fs) = .ok fs := ih h.tail (.inl rfl)
      rw [printAll, List.flatMap_cons, ← printAll]
      cases h.head with
      | @literal text htext =>
          obtain rfl : reversed = [] := hfirst.resolve_right fun hfirst => by cases hfirst _ rfl
          have hflush : flush text.toList.reverse = [literal text] := by
            rw [flush_reverse (by simpa using htext), String.ofList_toList]
          rw [print, readFrom_escaped, List.append_nil, ih h.tail (.inr h.adjoins_head), hflush]
          rfl
      | reference hpath =>
          rw [print, List.cons_append, readFrom_path reversed hpath h.endsPath, hread]
          rfl
      | @expression text htext htrim hclosing =>
          have hfilled : allBlank text.toList = false := by
            rw [← Bool.not_eq_true, ← trim_eq_nil_iff, htrim]
            simpa using htext
          rw [print, List.cons_append, List.cons_append, List.append_assoc, List.singleton_append,
            readFrom_expression reversed (closing?_behind hclosing _) hfilled, hread, htrim, String.ofList_toList]
          rfl

theorem ofLine_printAll {fs : List Fragment} (h : IsLine fs) : ofLine (printAll fs) = .ok fs :=
  readFrom_printAll h (.inl rfl)

/-! ## What a line is read as -/

/-- The literal characters that a line begins with, and the fragments behind them. -/
structure ReadsAs (cs text : List Char) (fs : List Fragment) : Prop where
  like : BeginsLike cs text
  line : IsLine fs
  first : ∀ f ∈ fs.head?, f.isLiteral = false

namespace ReadsAs

variable {cs text : List Char} {fs : List Fragment}

theorem nil : ReadsAs [] [] [] := ⟨.nil, .nil, by rintro f ⟨⟩⟩

theorem isLine (h : ReadsAs cs text fs) : IsLine (flush text.reverse ++ fs) := by
  cases text with
  | nil => exact h.line
  | cons c text =>
      have hproper : Proper (literal (String.ofList (c :: text))) := .literal (by simp)
      rw [flush_reverse (List.cons_ne_nil c text)]
      exact h.line.cons hproper h.first

/-- Behind a path the literal characters are no more of it. -/
theorem adjoins (h : ReadsAs cs text fs) (hends : EndsPath cs) (path : List String) :
    ∀ f ∈ (flush text.reverse ++ fs).head?, Adjoins (reference path) f := by
  cases text with
  | nil =>
      intro f hf
      have hfirst := h.first f hf
      cases f with
      | literal => cases hfirst
      | reference | expression => trivial
  | cons c text =>
      rw [flush_reverse (List.cons_ne_nil c text)]
      rintro f ⟨⟩
      have htext := hends.like h.like
      rwa [Adjoins, String.toList_ofList]

end ReadsAs

theorem readFrom_readsAs {reversed cs : List Char} {fs : List Fragment} (h : readFrom reversed cs = .ok fs) :
    ∃ text more, ReadsAs cs text more ∧ fs = flush (text.reverse ++ reversed) ++ more := by
  fun_induction readFrom reversed cs generalizing fs with
  | case1 =>
      cases h
      exact ⟨[], [], .nil, by simp⟩
  | case2 reversed cs ih =>
      obtain ⟨text, more, hreads, rfl⟩ := ih h
      exact ⟨'@' :: text, more, ⟨.cons (by decide), hreads.line, hreads.first⟩, by simp⟩
  | case3 | case4 | case5 | case7 => cases h
  | case6 =>
      rename_i body _ hclosing _ _ hbody _ hread ih
      cases h
      obtain ⟨text, more, hreads, rfl⟩ := ih hread
      have hproper : Proper (expression (String.ofList (trim body))) := by
        refine .expression (by simpa using hbody) ?_ ?_ <;> rw [String.toList_ofList]
        · exact trim_trim body
        · exact closing?_behind (closing?_trim hclosing) []
      refine ⟨[], _, ⟨.nil, hreads.isLine.cons hproper fun _ _ => trivial, ?_⟩, by rw [List.append_nil]; rfl⟩
      rintro f ⟨⟩
      rfl
  | case8 =>
      rename_i hc _ _ hread ih
      cases h
      obtain ⟨text, more, hreads, rfl⟩ := ih hread
      obtain ⟨hpath, _, hends⟩ := @readPath_takes (_ :: _) (by simpa using hc)
      refine ⟨[], _, ⟨.nil, hreads.isLine.cons (.reference hpath) (hreads.adjoins hends _), ?_⟩, by simp⟩
      rintro f ⟨⟩
      rfl
  | case9 reversed c cs hmarker hbrace hc ih =>
      obtain ⟨text, more, hreads, rfl⟩ := ih h
      exact ⟨'@' :: text, more, ⟨.cons (by decide), hreads.line, hreads.first⟩, by simp⟩
  | case10 _ c cs _ _ hlone ih =>
      obtain ⟨text, more, hreads, rfl⟩ := ih h
      exact ⟨c :: text, more, ⟨hreads.like.cons_cons c, hreads.line, hreads.first⟩, by simp⟩

theorem isLine_of_ofLine {cs : List Char} {fs : List Fragment} (h : ofLine cs = .ok fs) : IsLine fs := by
  obtain ⟨text, more, hreads, rfl⟩ := readFrom_readsAs h
  rw [List.append_nil]
  exact hreads.isLine

/-- Which lists are the fragments of a line. -/
theorem exists_ofLine_iff {fs : List Fragment} : (∃ cs, ofLine cs = .ok fs) ↔ IsLine fs :=
  ⟨fun ⟨_, h⟩ => isLine_of_ofLine h, fun h => ⟨_, ofLine_printAll h⟩⟩

/-- The fragments of a line are not empty, no two literals are next to each other, and what is written of them is
read as the same fragments. -/
theorem ofLine_print {cs : List Char} {fs : List Fragment} (h : ofLine cs = .ok fs) :
    literal "" ∉ fs ∧ fs.IsChain (fun f g => f.isLiteral = true → g.isLiteral = false) ∧
      (∀ path, reference path ∈ fs → IsPath path) ∧
      (∀ text, expression text ∈ fs → text ≠ "" ∧ trim text.toList = text.toList) ∧
      ofLine (printAll fs) = .ok fs := by
  have hline := isLine_of_ofLine h
  refine ⟨fun hmem => ?_, ?_, fun path hmem => ?_, fun text hmem => ?_, ofLine_printAll hline⟩
  · cases hline.proper _ hmem with
    | literal htext => exact htext rfl
  · refine hline.adjoins.imp fun f g hadjoins hf => ?_
    cases f with
    | literal => exact hadjoins
    | reference | expression => cases hf
  · cases hline.proper _ hmem with
    | reference hpath => exact hpath
  · cases hline.proper _ hmem with
    | expression htext htrim => exact ⟨htext, htrim⟩

/-- A reference before a dot and an expression with a brace in a string, in text with doubled and lone `@`. -/
theorem ofLine_print_mixed :
    ofLine "a@@b @c.d.@\x7b \"\x7d\" + e \x7d@ f".toList = .ok [.literal "a@b ", .reference ["c", "d"], .literal ".",
      .expression "\"\x7d\" + e", .literal "@ f"] ∧
    ofLine "a@@b @c.d.@\x7b\"\x7d\" + e\x7d@@ f".toList = .ok [.literal "a@b ", .reference ["c", "d"], .literal ".",
      .expression "\"\x7d\" + e", .literal "@ f"] := by
  have h : ofLine "a@@b @c.d.@\x7b \"\x7d\" + e \x7d@ f".toList = .ok [.literal "a@b ", .reference ["c", "d"],
      .literal ".", .expression "\"\x7d\" + e", .literal "@ f"] := by cbv
  exact ⟨h, (ofLine_print h).2.2.2.2⟩

end MailTemplate.Fragment
