import MailTemplate.Proofs.Json.Grammar

/-!
# Data files are read by their grammar

A text is read as data if and only if it is the data in its spelling, with blanks around it, and nested at most
127 deep (`ofText?_eq_some_iff`). That the reader has a bound on its steps makes no difference.
-/

namespace MailTemplate.Json

/-- Blanks that may stand between the parts of data. -/
def Blanks (s : List Char) : Prop := ∀ c ∈ s, isSpace c = true

mutual

/-- A text spells a value in which arrays and objects are nested at most so deep. -/
inductive ValueForm : Nat → List Char → Json → Prop
  | null {d} : ValueForm d ['n', 'u', 'l', 'l'] .null
  | yes {d} : ValueForm d ['t', 'r', 'u', 'e'] (.bool true)
  | no {d} : ValueForm d ['f', 'a', 'l', 's', 'e'] (.bool false)
  | string {d cs s} : TextForm cs s → ValueForm d ('"' :: cs) (.string (String.ofList s))
  | number {d cs x} : NumberForm cs x → ValueForm d cs (.number x)
  | noItems {d s} : Blanks s → ValueForm (d + 1) ('[' :: (s ++ [']'])) (.array [])
  | array {d cs js} : ItemsForm d cs js → ValueForm (d + 1) ('[' :: (cs ++ [']'])) (.array js)
  | noMembers {d s} : Blanks s → ValueForm (d + 1) ('{' :: (s ++ ['}'])) (.object [])
  | object {d cs ms} : MembersForm d cs ms → ValueForm (d + 1) ('{' :: (cs ++ ['}'])) (.object ms)

/-- A value with blanks around it. -/
inductive PaddedForm : Nat → List Char → Json → Prop
  | mk {d before cs after j} : Blanks before → ValueForm d cs j → Blanks after →
      PaddedForm d (before ++ (cs ++ after)) j

inductive ItemsForm : Nat → List Char → List Json → Prop
  | last {d cs j} : PaddedForm d cs j → ItemsForm d cs [j]
  | cons {d cs j more js} : PaddedForm d cs j → ItemsForm d more js → ItemsForm d (cs ++ ',' :: more) (j :: js)

inductive MemberForm : Nat → List Char → String × Json → Prop
  | mk {d before name s after cs j} : Blanks before → TextForm name s → Blanks after → PaddedForm d cs j →
      MemberForm d (before ++ '"' :: (name ++ (after ++ ':' :: cs))) (String.ofList s, j)

inductive MembersForm : Nat → List Char → List (String × Json) → Prop
  | last {d cs m} : MemberForm d cs m → MembersForm d cs [m]
  | cons {d cs m more ms} : MemberForm d cs m → MembersForm d more ms → MembersForm d (cs ++ ',' :: more) (m :: ms)

end

/-! ## Blanks -/

section Blanks

variable {s cs rest : List Char} {c : Char}

theorem Blanks.append {t : List Char} (hs : Blanks s) (ht : Blanks t) : Blanks (s ++ t) :=
  List.forall_mem_append.2 ⟨hs, ht⟩

/-- What is skipped are blanks, and then something else comes next. -/
theorem skip_eq (cs : List Char) : ∃ s, cs = s ++ skip cs ∧ Blanks s :=
  ⟨cs.takeWhile isSpace, List.takeWhile_append_dropWhile.symm, fun _ hc => List.mem_takeWhile_imp hc⟩

theorem skip_blanks (hs : Blanks s) (hc : isSpace c = false) : skip (s ++ c :: rest) = c :: rest :=
  dropWhile_exact hs (by simpa using hc)

end Blanks

section Prepended

variable {d : Nat} {s cs : List Char} (hs : Blanks s)

include hs

theorem PaddedForm.prepend {j : Json} (h : PaddedForm d cs j) : PaddedForm d (s ++ cs) j := by
  obtain @⟨_, before, cs, after, _, hbefore, hvalue, hafter⟩ := h
  rw [← List.append_assoc]
  exact .mk (hs.append hbefore) hvalue hafter

theorem ItemsForm.prepend {js : List Json} (h : ItemsForm d cs js) : ItemsForm d (s ++ cs) js := by
  cases h with
  | last h => exact .last (h.prepend hs)
  | cons h hmore =>
      rw [← List.append_assoc]
      exact .cons (h.prepend hs) hmore

theorem MemberForm.prepend {m : String × Json} (h : MemberForm d cs m) : MemberForm d (s ++ cs) m := by
  obtain @⟨_, before, name, text, after, cs, j, hbefore, hname, hafter, hvalue⟩ := h
  rw [← List.append_assoc]
  exact .mk (hs.append hbefore) hname hafter hvalue

theorem MembersForm.prepend {ms : List (String × Json)} (h : MembersForm d cs ms) : MembersForm d (s ++ cs) ms := by
  cases h with
  | last h => exact .last (h.prepend hs)
  | cons h hmore =>
      rw [← List.append_assoc]
      exact .cons (h.prepend hs) hmore

end Prepended

/-! ## What is read is spelled so -/

mutual

theorem ValueForm.of_reads {fuel d : Nat} {cs rest : List Char} {j : Json} (h : readValue fuel d cs = some (j, rest)) :
    ∃ before front, cs = before ++ (front ++ rest) ∧ Blanks before ∧ ValueForm d front j := by
  match fuel with
  | 0 => cases h
  | fuel + 1 =>
      obtain ⟨before, hcs, hbefore⟩ := skip_eq cs
      rw [readValue] at h
      split at h
      case h_1 hskip =>
        cases h
        rw [hskip] at hcs
        exact ⟨before, _, hcs, hbefore, .null⟩
      case h_2 hskip =>
        cases h
        rw [hskip] at hcs
        exact ⟨before, _, hcs, hbefore, .yes⟩
      case h_3 hskip =>
        cases h
        rw [hskip] at hcs
        exact ⟨before, _, hcs, hbefore, .no⟩
      case h_4 hskip =>
        obtain ⟨⟨s, back⟩, htext, hvalue⟩ := Option.map_eq_some_iff.1 h
        cases hvalue
        obtain ⟨front, rfl, hfront⟩ := readText_eq_some_iff.1 htext
        rw [hskip] at hcs
        exact ⟨before, '"' :: front, hcs, hbefore, .string hfront⟩
      case h_5 inner hskip =>
        split at h
        · cases h
        · rename_i d
          obtain ⟨blanks, hinner, hblanks⟩ := skip_eq inner
          split at h
          · rename_i hclose
            cases h
            rw [hclose] at hinner
            refine ⟨before, '[' :: (blanks ++ [']']), ?_, hbefore, .noItems hblanks⟩
            rw [hcs, hskip, hinner]
            simp
          · obtain ⟨⟨js, back⟩, hitems, hvalue⟩ := Option.map_eq_some_iff.1 h
            cases hvalue
            obtain ⟨front, hfront, hform⟩ := ItemsForm.of_reads hitems
            refine ⟨before, '[' :: (blanks ++ front ++ [']']), ?_, hbefore, .array (hform.prepend hblanks)⟩
            rw [hcs, hskip, hinner, hfront]
            simp
      case h_6 inner hskip =>
        split at h
        · cases h
        · rename_i d
          obtain ⟨blanks, hinner, hblanks⟩ := skip_eq inner
          split at h
          · rename_i hclose
            cases h
            rw [hclose] at hinner
            refine ⟨before, '\x7b' :: (blanks ++ ['\x7d']), ?_, hbefore, .noMembers hblanks⟩
            rw [hcs, hskip, hinner]
            simp
          · obtain ⟨⟨ms, back⟩, hmembers, hvalue⟩ := Option.map_eq_some_iff.1 h
            cases hvalue
            obtain ⟨front, hfront, hform⟩ := MembersForm.of_reads hmembers
            refine ⟨before, '\x7b' :: (blanks ++ front ++ ['\x7d']), ?_, hbefore, .object (hform.prepend hblanks)⟩
            rw [hcs, hskip, hinner, hfront]
            simp
      case h_7 =>
        obtain ⟨front, x, hfront, rfl, hform⟩ := NumberForm.of_reads h
        exact ⟨before, front, hfront ▸ hcs, hbefore, .number hform⟩

theorem ItemsForm.of_reads {fuel d : Nat} {cs rest : List Char} {js : List Json}
    (h : readItems fuel d cs = some (js, rest)) : ∃ front, cs = front ++ ']' :: rest ∧ ItemsForm d front js := by
  match fuel with
  | 0 => cases h
  | fuel + 1 =>
      rw [readItems] at h
      obtain ⟨⟨j, back⟩, hvalue, hback⟩ := Option.bind_eq_some_iff.1 h
      obtain ⟨before, front, rfl, hbefore, hj⟩ := ValueForm.of_reads hvalue
      obtain ⟨after, hskip, hafter⟩ := skip_eq back
      have hpadded : PaddedForm d (before ++ (front ++ after)) j := .mk hbefore hj hafter
      simp only at hback
      split at hback
      · rename_i hcomma
        obtain ⟨⟨js, _⟩, hitems, hvalue⟩ := Option.map_eq_some_iff.1 hback
        cases hvalue
        obtain ⟨more, rfl, hform⟩ := ItemsForm.of_reads hitems
        refine ⟨before ++ (front ++ after) ++ ',' :: more, ?_, .cons hpadded hform⟩
        rw [hskip, hcomma]
        simp
      · rename_i hclose
        cases hback
        refine ⟨before ++ (front ++ after), ?_, .last hpadded⟩
        rw [hskip, hclose]
        simp
      · cases hback

theorem MembersForm.of_reads {fuel d : Nat} {cs rest : List Char} {ms : List (String × Json)}
    (h : readMembers fuel d cs = some (ms, rest)) : ∃ front, cs = front ++ '}' :: rest ∧ MembersForm d front ms := by
  match fuel with
  | 0 => cases h
  | fuel + 1 =>
      obtain ⟨before, hcs, hbefore⟩ := skip_eq cs
      rw [readMembers] at h
      split at h
      · rename_i hmark
        obtain ⟨⟨s, afterName⟩, hname, hrest⟩ := Option.bind_eq_some_iff.1 h
        obtain ⟨name, rfl, hs⟩ := readText_eq_some_iff.1 hname
        obtain ⟨middle, hmiddle, hblanks⟩ := skip_eq afterName
        simp only at hrest
        split at hrest
        · rename_i hcolon
          obtain ⟨⟨j, back⟩, hvalue, hback⟩ := Option.bind_eq_some_iff.1 hrest
          obtain ⟨ahead, front, rfl, hahead, hj⟩ := ValueForm.of_reads hvalue
          obtain ⟨after, hskip, hafter⟩ := skip_eq back
          have hmember : MemberForm d
              (before ++ '"' :: (name ++ (middle ++ ':' :: (ahead ++ (front ++ after))))) (String.ofList s, j) :=
            .mk hbefore hs hblanks (.mk hahead hj hafter)
          simp only at hback
          split at hback
          · rename_i hcomma
            obtain ⟨⟨ms, _⟩, hmembers, hvalue⟩ := Option.map_eq_some_iff.1 hback
            cases hvalue
            obtain ⟨more, rfl, hform⟩ := MembersForm.of_reads hmembers
            refine ⟨_, ?_, .cons hmember hform⟩
            rw [hcs, hmark, hmiddle, hcolon, hskip, hcomma]
            simp
          · rename_i hclose
            cases hback
            refine ⟨_, ?_, .last hmember⟩
            rw [hcs, hmark, hmiddle, hcolon, hskip, hclose]
            simp
          · cases hback
        · cases hrest
      · cases h

end

/-! ## What is spelled so is read -/

section Starts

variable {d fuel : Nat} {s cs front rest before more : List Char} {c : Char} {x : Float} {j : Json}

theorem endsNumber_append (hs : Blanks s) (hrest : EndsNumber rest) : EndsNumber (s ++ rest) := by
  cases s with
  | nil => exact hrest
  | cons c s =>
      rintro c ⟨⟩
      have hc := hs c List.mem_cons_self
      simp only [isSpace, Bool.or_eq_true, beq_iff_eq] at hc
      rcases hc with ((rfl | rfl) | rfl) | rfl <;> decide

theorem NumberForm.head (h : NumberForm front x) :
    ∃ c more, front = c :: more ∧ (c.isDigit = true ∨ c = '-') := by
  cases h with
  | positive h =>
      obtain ⟨c, more, rfl, hc⟩ := h.head
      exact ⟨c, more, rfl, .inl hc⟩
  | negative => exact ⟨'-', _, rfl, .inr rfl⟩

theorem not_isSpace_of_number (hc : c.isDigit = true ∨ c = '-') : isSpace c = false := by
  rw [← Bool.not_eq_true]
  intro hspace
  simp only [isSpace, Bool.or_eq_true, beq_iff_eq] at hspace
  rcases hspace with ((rfl | rfl) | rfl) | rfl <;> exact absurd hc (by decide)

theorem ValueForm.head (h : ValueForm d front j) :
    ∃ c more, front = c :: more ∧ isSpace c = false ∧ c ≠ ']' := by
  cases h with
  | number h =>
      obtain ⟨c, more, rfl, hc⟩ := h.head
      refine ⟨c, more, rfl, not_isSpace_of_number hc, ?_⟩
      rintro rfl
      exact absurd hc (by decide)
  | _ => exact ⟨_, _, rfl, by decide, by decide⟩

theorem ItemsForm.head {js : List Json} (h : ItemsForm d cs js) (rest : List Char) :
    ∃ c more, skip (cs ++ rest) = c :: more ∧ c ≠ ']' := by
  have hpadded {cs rest : List Char} {j : Json} (h : PaddedForm d cs j) :
      ∃ c more, skip (cs ++ rest) = c :: more ∧ c ≠ ']' := by
    obtain ⟨hbefore, hvalue, _⟩ := h
    obtain ⟨c, more, rfl, hspace, hc⟩ := hvalue.head
    rw [List.append_assoc, List.append_assoc]
    exact ⟨c, _, skip_blanks hbefore hspace, hc⟩
  cases h with
  | last h => exact hpadded h
  | cons h =>
      rw [List.append_assoc]
      exact hpadded h

theorem MembersForm.head {ms : List (String × Json)} (h : MembersForm d cs ms) (rest : List Char) :
    ∃ more, skip (cs ++ rest) = '"' :: more := by
  have hmember {cs rest : List Char} {m : String × Json} (h : MemberForm d cs m) :
      ∃ more, skip (cs ++ rest) = '"' :: more := by
    obtain ⟨hbefore⟩ := h
    rw [List.append_assoc]
    exact ⟨_, skip_blanks hbefore rfl⟩
  cases h with
  | last h => exact hmember h
  | cons h =>
      rw [List.append_assoc]
      exact hmember h

theorem skip_skip : skip (skip cs) = skip cs := List.dropWhile_idempotent ..

theorem readValue_skip : readValue fuel d (skip cs) = readValue fuel d cs := by
  cases fuel with
  | zero => rfl
  | succ fuel => rw [readValue, readValue, skip_skip]

theorem readItems_skip : readItems fuel d (skip cs) = readItems fuel d cs := by
  cases fuel with
  | zero => rfl
  | succ fuel => rw [readItems, readItems, readValue_skip]

theorem readMembers_skip : readMembers fuel d (skip cs) = readMembers fuel d cs := by
  cases fuel with
  | zero => rfl
  | succ fuel => rw [readMembers, readMembers, skip_skip]

theorem readValue_number (hbefore : Blanks before) (hc : c.isDigit = true ∨ c = '-') :
    readValue (fuel + 1) d (before ++ c :: more) = readNumber? (c :: more) := by
  rw [readValue, skip_blanks hbefore (not_isSpace_of_number hc)]
  split
  case h_7 => rfl
  all_goals
    rename_i heq
    cases heq
    exact absurd hc (by decide)

theorem readValue_array (hbefore : Blanks before) (hc : ∀ more, skip cs ≠ ']' :: more) :
    readValue (fuel + 1) (d + 1) (before ++ '[' :: cs) =
      (readItems fuel d cs).map fun r => (.array r.1, r.2) := by
  rw [readValue, skip_blanks hbefore rfl]
  simp only [readItems_skip]

theorem readValue_object (hbefore : Blanks before) (hc : ∀ more, skip cs ≠ '}' :: more) :
    readValue (fuel + 1) (d + 1) (before ++ '{' :: cs) =
      (readMembers fuel d cs).map fun r => (.object r.1, r.2) := by
  rw [readValue, skip_blanks hbefore rfl]
  simp only [readMembers_skip]

theorem readItems_next {back : List Char} (hvalue : readValue fuel d cs = some (j, back))
    (hback : skip back = ',' :: rest) : readItems (fuel + 1) d cs = (readItems fuel d rest).map fun r => (j :: r.1, r.2) := by
  rw [readItems, hvalue]
  simp only [Option.bind_eq_bind, Option.bind_some, hback]

theorem readItems_last {back : List Char} (hvalue : readValue fuel d cs = some (j, back))
    (hback : skip back = ']' :: rest) : readItems (fuel + 1) d cs = some ([j], rest) := by
  rw [readItems, hvalue]
  simp only [Option.bind_eq_bind, Option.bind_some, hback]
  rfl

section Member

variable {name back : List Char} (hbefore : Blanks before) (hname : TextForm name s) (hmore : Blanks more)
  (hvalue : readValue fuel d cs = some (j, back))

include hbefore hname hmore hvalue

theorem readMembers_next (hback : skip back = ',' :: rest) :
    readMembers (fuel + 1) d (before ++ '"' :: (name ++ (more ++ ':' :: cs))) =
      (readMembers fuel d rest).map fun r => ((String.ofList s, j) :: r.1, r.2) := by
  rw [readMembers, skip_blanks hbefore rfl]
  simp only [readText_eq_some_iff.2 ⟨_, rfl, hname⟩, Option.bind_eq_bind, Option.bind_some]
  rw [skip_blanks hmore rfl]
  simp only [hvalue, Option.bind_some, hback]

theorem readMembers_last (hback : skip back = '}' :: rest) :
    readMembers (fuel + 1) d (before ++ '"' :: (name ++ (more ++ ':' :: cs))) =
      some ([(String.ofList s, j)], rest) := by
  rw [readMembers, skip_blanks hbefore rfl]
  simp only [readText_eq_some_iff.2 ⟨_, rfl, hname⟩, Option.bind_eq_bind, Option.bind_some]
  rw [skip_blanks hmore rfl]
  simp only [hvalue, Option.bind_some, hback]
  rfl

end Member

end Starts

theorem endsNumber_mark {c : Char} {rest : List Char} (hc : c = ',' ∨ c = ']' ∨ c = '}') : EndsNumber (c :: rest) := by
  rintro d ⟨⟩
  rcases hc with rfl | rfl | rfl <;> decide

mutual

theorem ValueForm.reads {d fuel : Nat} {before front rest : List Char} {j : Json} (h : ValueForm d front j)
    (hbefore : Blanks before) (hrest : EndsNumber rest) (hfuel : 2 * front.length ≤ fuel) :
    readValue fuel d (before ++ (front ++ rest)) = some (j, rest) := by
  have hpos : 1 ≤ fuel := by
    obtain ⟨c, more, rfl, _⟩ := h.head
    simp only [List.length_cons] at hfuel
    omega
  obtain ⟨fuel, rfl⟩ := Nat.exists_eq_add_of_le' hpos
  match h with
  | .null | .yes | .no =>
      rw [List.cons_append, readValue, skip_blanks hbefore rfl]
      rfl
  | .string htext =>
      rw [List.cons_append, readValue, skip_blanks hbefore rfl]
      simp only [readText_eq_some_iff.2 ⟨_, rfl, htext⟩]
      rfl
  | .number hnumber =>
      obtain ⟨c, more, rfl, hc⟩ := hnumber.head
      rw [List.cons_append, readValue_number hbefore hc]
      exact hnumber.reads hrest
  | .noItems hblanks =>
      rw [List.cons_append, List.append_assoc, List.singleton_append, readValue, skip_blanks hbefore rfl]
      simp only
      rw [skip_blanks hblanks rfl]
      rfl
  | @ValueForm.array _ cs _ hitems =>
      obtain ⟨c, more, hskip, hc⟩ := hitems.head (']' :: rest)
      have hclose (more : List Char) : skip (cs ++ ']' :: rest) ≠ ']' :: more := by
        rw [hskip]
        exact fun he => hc (List.cons.inj he).1
      have hlength : 2 * cs.length + 1 ≤ fuel := by
        simp only [List.length_cons, List.length_append, List.length_nil] at hfuel
        omega
      rw [List.cons_append, List.append_assoc, List.singleton_append, readValue_array hbefore hclose,
        ItemsForm.reads hitems hlength]
      rfl
  | .noMembers hblanks =>
      rw [List.cons_append, List.append_assoc, List.singleton_append, readValue, skip_blanks hbefore rfl]
      simp only
      rw [skip_blanks hblanks rfl]
      rfl
  | @ValueForm.object _ cs _ hmembers =>
      obtain ⟨more, hskip⟩ := hmembers.head ('\x7d' :: rest)
      have hclose (more : List Char) : skip (cs ++ '\x7d' :: rest) ≠ '\x7d' :: more := by
        rw [hskip]
        exact fun he => absurd (List.cons.inj he).1 (by decide)
      have hlength : 2 * cs.length + 1 ≤ fuel := by
        simp only [List.length_cons, List.length_append, List.length_nil] at hfuel
        omega
      rw [List.cons_append, List.append_assoc, List.singleton_append, readValue_object hbefore hclose,
        MembersForm.reads hmembers hlength]
      rfl

/-- Behind a value are the blanks behind it. -/
theorem PaddedForm.reads {d fuel : Nat} {front rest : List Char} {c : Char} {j : Json} (h : PaddedForm d front j)
    (hc : c = ',' ∨ c = ']' ∨ c = '}') (hfuel : 2 * front.length ≤ fuel) :
    ∃ back, readValue fuel d (front ++ c :: rest) = some (j, back) ∧ skip back = c :: rest := by
  match h with
  | @PaddedForm.mk _ before cs after _ hbefore hvalue hafter =>
      have hspace : isSpace c = false := by
        rcases hc with rfl | rfl | rfl <;> rfl
      simp only [List.length_append] at hfuel
      rw [List.append_assoc, List.append_assoc]
      exact ⟨after ++ c :: rest, hvalue.reads hbefore (endsNumber_append hafter (endsNumber_mark hc)) (by omega),
        skip_blanks hafter hspace⟩

theorem ItemsForm.reads {d fuel : Nat} {front rest : List Char} {js : List Json} (h : ItemsForm d front js)
    (hfuel : 2 * front.length + 1 ≤ fuel) : readItems fuel d (front ++ ']' :: rest) = some (js, rest) := by
  obtain ⟨fuel, rfl⟩ := Nat.exists_eq_add_of_le' (Nat.one_le_of_lt hfuel)
  match h with
  | .last h =>
      obtain ⟨back, hvalue, hback⟩ := h.reads (.inr (.inl rfl)) (by omega : _ ≤ fuel)
      exact readItems_last hvalue hback
  | .cons h hmore =>
      simp only [List.length_append, List.length_cons] at hfuel
      obtain ⟨back, hvalue, hback⟩ := h.reads (.inl rfl) (by omega : _ ≤ fuel)
      rw [List.append_assoc, List.cons_append, readItems_next hvalue hback, hmore.reads (by omega)]
      rfl

theorem MembersForm.reads {d fuel : Nat} {front rest : List Char} {ms : List (String × Json)}
    (h : MembersForm d front ms) (hfuel : 2 * front.length + 1 ≤ fuel) :
    readMembers fuel d (front ++ '}' :: rest) = some (ms, rest) := by
  obtain ⟨fuel, rfl⟩ := Nat.exists_eq_add_of_le' (Nat.one_le_of_lt hfuel)
  match h with
  | .last (.mk hbefore hname hafter h) =>
      simp only [List.length_append, List.length_cons] at hfuel
      obtain ⟨back, hvalue, hback⟩ := h.reads (.inr (.inr rfl)) (by omega : _ ≤ fuel)
      simp only [List.append_assoc, List.cons_append]
      exact readMembers_last hbefore hname hafter hvalue hback
  | .cons (.mk hbefore hname hafter h) hmore =>
      simp only [List.length_append, List.length_cons] at hfuel
      obtain ⟨back, hvalue, hback⟩ := h.reads (.inl rfl) (by omega : _ ≤ fuel)
      simp only [List.append_assoc, List.cons_append]
      rw [readMembers_next hbefore hname hafter hvalue hback, hmore.reads (by omega)]
      rfl

end

/-! ## Whole files -/

/-- A file is read as data if and only if it is the data in its spelling, with blanks around it. -/
theorem ofText?_eq_some_iff {s : String} {j : Json} : ofText? s = some j ↔ PaddedForm maxDepth s.toList j := by
  unfold ofText?
  constructor
  · intro h
    simp only at h
    split at h
    · rename_i j' rest hvalue
      split at h
      · rename_i hrest
        cases h
        obtain ⟨before, front, hcs, hbefore, hform⟩ := ValueForm.of_reads hvalue
        obtain ⟨after, hafter, hblanks⟩ := skip_eq rest
        rw [List.isEmpty_iff.1 hrest, List.append_nil] at hafter
        rw [hcs, hafter]
        exact .mk hbefore hform hblanks
      · cases h
    · cases h
  · rintro h
    generalize s.toList = cs at h ⊢
    obtain @⟨_, before, front, after, _, hbefore, hvalue, hafter⟩ := h
    have hends : EndsNumber (after ++ []) := endsNumber_append hafter (by simp [EndsNumber])
    have hfuel : 2 * front.length ≤ 2 * (before ++ (front ++ after)).length + 2 := by
      simp only [List.length_append]
      omega
    have hread := hvalue.reads hbefore hends hfuel
    rw [List.append_nil] at hread
    have hskip : skip after = [] := List.dropWhile_eq_nil_iff.2 hafter
    simp only [hread, hskip, List.isEmpty_nil, if_true]

end MailTemplate.Json
