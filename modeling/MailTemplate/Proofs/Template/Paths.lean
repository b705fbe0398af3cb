import MailTemplate.Proofs.Grammar.ExprPrinter
import MailTemplate.Proofs.Template.Markers

/-!
# Paths in a line

A path stands for itself wherever it is read: as a reference (`readPath_eq_iff`), as the tokens of an expression
(`begins_path`), and as the text of an expression (`ofText_path`), if no segment of it is a keyword.
-/

namespace MailTemplate

open Text

/-! ## Paths as they are written -/

/-- Whether a text is spelled as an identifier is, which keywords are, too. -/
def IsWord (s : String) : Prop :=
  s.toList.head?.any isWordStart = true ∧ ∀ c ∈ s.toList, isWordChar c = true

/-- The characters of a path, with a dot between its segments. -/
def pathChars (path : List String) : List Char := List.intercalate ['.'] (path.map String.toList)

theorem toList_path (path : List String) : (".".intercalate path).toList = pathChars path :=
  String.toList_intercalate

theorem pathChars_singleton (s : String) : pathChars [s] = s.toList := List.intercalate_singleton

theorem pathChars_cons (s : String) {path : List String} (hpath : path ≠ []) :
    pathChars (s :: path) = s.toList ++ '.' :: pathChars path := by
  rw [pathChars, List.map_cons, List.intercalate_cons_of_ne_nil (by simpa using hpath)]
  simp [pathChars]

theorem pathChars_eq_cons (s : String) (path : List String) : ∃ more, pathChars (s :: path) = s.toList ++ more := by
  cases path with
  | nil => exact ⟨[], by rw [pathChars_singleton, List.append_nil]⟩
  | cons s' path => exact ⟨_, pathChars_cons s (List.cons_ne_nil s' path)⟩

/-- Whether a list of segments is a path: there is one at least, and each is a word. -/
inductive IsPath : List String → Prop
  | single {s} : IsWord s → IsPath [s]
  | more {s path} : IsWord s → IsPath path → IsPath (s :: path)

theorem IsPath.ne_nil {path : List String} (h : IsPath path) : path ≠ [] := by
  cases h <;> exact List.cons_ne_nil _ _

theorem isWordChar_of_isWordStart {c : Char} (h : isWordStart c = true) : isWordChar c = true := by
  simp only [isWordStart, isWordChar, Char.isAlphanum, Bool.or_eq_true] at h ⊢
  rcases h with h | h <;> simp [h]

theorem IsWord.exists_cons {s : String} (h : IsWord s) : ∃ c cs, s.toList = c :: cs ∧ isWordStart c = true := by
  obtain ⟨hstart, _⟩ := h
  cases hs : s.toList with
  | nil => simp [hs] at hstart
  | cons c cs => exact ⟨c, cs, rfl, by simpa [hs] using hstart⟩

theorem IsPath.exists_cons {path : List String} (h : IsPath path) :
    ∃ c cs, pathChars path = c :: cs ∧ isWordStart c = true := by
  cases h with
  | single hs | more hs =>
      obtain ⟨c, cs, hc, hstart⟩ := hs.exists_cons
      obtain ⟨more, hmore⟩ := pathChars_eq_cons _ _
      exact ⟨c, cs ++ more, by rw [hmore, hc, List.cons_append], hstart⟩

theorem IsPath.chars {path : List String} (h : IsPath path) :
    ∀ c ∈ pathChars path, isWordChar c = true ∨ c = '.' := by
  induction h with
  | single hs =>
      rw [pathChars_singleton]
      exact fun c hc => .inl (hs.2 c hc)
  | more hs h ih =>
      rw [pathChars_cons _ h.ne_nil]
      intro c hc
      rcases List.mem_append.1 hc with hc | hc
      · exact .inl (hs.2 c hc)
      · rcases List.mem_cons.1 hc with rfl | hc
        · exact .inr rfl
        · exact ih c hc

/-- Whether what stands behind a path is no more of it. -/
structure EndsPath (cs : List Char) : Prop where
  word : ∀ c ∈ cs.head?, isWordChar c = false
  dot : ∀ c ds, cs = '.' :: c :: ds → isWordStart c = false

theorem EndsPath.like {cs ds : List Char} (h : EndsPath cs) (hlike : BeginsLike cs ds) : EndsPath ds := by
  refine ⟨fun c hc => h.word c (hlike.head c hc), ?_⟩
  rintro c ds rfl
  cases hlike with
  | cons hdot => exact absurd rfl hdot
  | dot hsecond =>
      obtain ⟨more, rfl⟩ := List.head?_eq_some_iff.1 (hsecond c rfl)
      exact h.dot c more rfl

theorem EndsPath.append {cs ds : List Char} (h : EndsPath cs)
    (hds : ∀ c ∈ ds.head?, isWordChar c = false ∧ c ≠ '.') : EndsPath (cs ++ ds) := by
  have hstart {c : Char} (hc : isWordChar c = false) : isWordStart c = false := by
    rw [← Bool.not_eq_true] at hc ⊢
    exact fun hstart => hc (isWordChar_of_isWordStart hstart)
  match cs with
  | [] => exact ⟨fun c hc => (hds c hc).1, by rintro c more rfl; exact absurd rfl (hds '.' rfl).2⟩
  | [c] =>
      refine ⟨fun d hd => h.word d hd, fun d more hd => ?_⟩
      obtain ⟨_, rfl⟩ := List.cons.inj hd
      exact hstart (hds d rfl).1
  | c :: d :: cs =>
      refine ⟨fun e he => h.word e he, fun e more he => ?_⟩
      cases he
      exact h.dot d cs rfl

/-! ## References -/

namespace Fragment

theorem readPath_path {path : List String} (h : IsPath path) {rest : List Char} (hrest : EndsPath rest) :
    readPath (pathChars path ++ rest) = (path, rest) := by
  induction h with
  | single hs =>
      rw [pathChars_singleton, readPath, takeWhile_exact hs.2 hrest.word]
      split
      · rename_i c more hmore
        rw [dropWhile_exact hs.2 hrest.word] at hmore
        rw [if_neg (by simp [hrest.dot c more hmore]), String.ofList_toList, hmore]
      · rw [dropWhile_exact hs.2 hrest.word, String.ofList_toList]
  | @more s path hs h ih =>
      obtain ⟨c, cs, hc, hstart⟩ := h.exists_cons
      have hdot : ∀ d ∈ ('.' :: pathChars path ++ rest).head?, isWordChar d = false := by
        rintro d ⟨⟩
        rfl
      rw [pathChars_cons _ h.ne_nil, List.append_assoc, readPath, takeWhile_exact hs.2 hdot]
      split
      · rename_i d ds hds
        rw [dropWhile_exact hs.2 hdot, hc] at hds
        rw [hc] at ih
        cases hds
        rw [if_pos hstart]
        simp only [List.cons_append] at ih ⊢
        simp [ih]
      · rename_i hnone
        rw [dropWhile_exact hs.2 hdot, hc] at hnone
        exact absurd rfl (hnone c (cs ++ rest))

theorem isWord_takeWhile {cs : List Char} (h : cs.head?.any isWordStart = true) :
    IsWord (String.ofList (cs.takeWhile isWordChar)) := by
  cases cs with
  | nil => cases h
  | cons c cs =>
      have hstart : isWordStart c = true := by simpa using h
      refine ⟨?_, fun d hd => ?_⟩
      · simp [isWordChar_of_isWordStart hstart, hstart]
      · rw [String.toList_ofList] at hd
        exact List.mem_takeWhile_imp hd

theorem endsPath_dropWhile {cs : List Char}
    (h : ∀ c ds, cs.dropWhile isWordChar = '.' :: c :: ds → isWordStart c = false) :
    EndsPath (cs.dropWhile isWordChar) :=
  ⟨fun _ hc => not_head_of_dropWhile hc, h⟩

/-- What is read as a path is one, with its end behind it. -/
theorem readPath_takes {cs : List Char} (h : cs.head?.any isWordStart = true) :
    IsPath (readPath cs).1 ∧ cs = pathChars (readPath cs).1 ++ (readPath cs).2 ∧ EndsPath (readPath cs).2 := by
  fun_induction readPath cs with
  | case1 cs name c rest hrest hc _ names rest' hread ih =>
      rw [hread] at ih
      obtain ⟨hnames, hcs, hends⟩ := ih (by simpa using hc)
      refine ⟨.more (isWord_takeWhile h) hnames, ?_, hends⟩
      rw [pathChars_cons _ hnames.ne_nil, String.toList_ofList, List.append_assoc, List.cons_append, ← hcs, ← hrest,
        List.takeWhile_append_dropWhile]
  | case2 cs name c rest hrest hc =>
      have hends : EndsPath (cs.dropWhile isWordChar) := by
        refine endsPath_dropWhile fun d ds hds => ?_
        rw [hrest] at hds
        cases hds
        simpa using hc
      rw [← hrest]
      refine ⟨.single (isWord_takeWhile h), ?_, hends⟩
      rw [pathChars_singleton, String.toList_ofList, List.takeWhile_append_dropWhile]
  | case3 cs name hrest =>
      refine ⟨.single (isWord_takeWhile h), ?_, endsPath_dropWhile fun c ds hds => absurd hds (hrest c ds)⟩
      rw [pathChars_singleton, String.toList_ofList, List.takeWhile_append_dropWhile]

theorem readPath_eq_iff {cs : List Char} (h : cs.head?.any isWordStart = true) {path : List String}
    {rest : List Char} :
    readPath cs = (path, rest) ↔ IsPath path ∧ cs = pathChars path ++ rest ∧ EndsPath rest := by
  constructor
  · intro hread
    have htakes := readPath_takes h
    rwa [hread] at htakes
  · rintro ⟨hpath, rfl, hrest⟩
    exact readPath_path hpath hrest

end Fragment

/-! ## Tokens -/

theorem not_isDigit_of_isWordStart {c : Char} (h : isWordStart c = true) : c.isDigit = false := by
  rw [← Bool.not_eq_true]
  intro hdigit
  simp only [isWordStart, Char.isAlpha, Char.isUpper, Char.isLower, Char.isDigit, Bool.or_eq_true,
    Bool.and_eq_true, decide_eq_true_eq, beq_iff_eq, ge_iff_le, UInt32.le_iff_toNat_le] at h hdigit
  rcases h with h | rfl
  · simp at h hdigit
    omega
  · simp at hdigit

theorem readToken_word {c : Char} (h : isWordStart c = true) (cs : List Char) :
    readToken c cs = .ok (wordToken ((c :: cs).takeWhile isWordChar), (c :: cs).takeWhile isWordChar,
      (c :: cs).dropWhile isWordChar) := by
  have hquote : ¬ (c = '"' || c = '\'') = true := by
    rw [Bool.or_eq_true, decide_eq_true_eq, decide_eq_true_eq]
    rintro (rfl | rfl) <;> revert h <;> decide
  rw [readToken, if_neg hquote, if_neg (by simp [not_isDigit_of_isWordStart h]), if_pos h]

/-- The lexemes of a path. -/
def pathLexemes : List String → List Lexeme
  | [] => []
  | [s] => [⟨[], s.toList, .ident s⟩]
  | s :: path => ⟨[], s.toList, .ident s⟩ :: ⟨[], ['.'], .symbol .dot⟩ :: pathLexemes path

/-- No segment of the path is a keyword. -/
def IsFree (path : List String) : Prop := ∀ s ∈ path, Keyword.ofWord? s.toList = none

theorem next?_word {s : String} (hs : IsWord s) (hfree : Keyword.ofWord? s.toList = none) (rest : List Char)
    (hrest : ∀ c ∈ rest.head?, isWordChar c = false) :
    Lexeme.next? (s.toList ++ rest) = .ok (some (⟨[], s.toList, .ident s⟩, rest)) := by
  obtain ⟨c, cs, hc, hstart⟩ := hs.exists_cons
  have hcomment : startsComment (c :: (cs ++ rest)) = false := by
    rw [← Bool.not_eq_true]
    intro hcomment
    obtain ⟨_, hslash⟩ := startsComment_eq_true hcomment
    obtain ⟨rfl, _⟩ := List.cons.inj hslash
    revert hstart
    decide
  refine Lexeme.next?_eq_some_iff.2 ⟨c, cs ++ rest, by rw [hc]; rfl, rfl, ?_, hcomment, ?_⟩
  · exact isBlank_of_isWordChar (isWordChar_of_isWordStart hstart)
  · rw [readToken_word hstart, ← List.cons_append, ← hc, takeWhile_exact hs.2 hrest, dropWhile_exact hs.2 hrest,
      wordToken, hfree, String.ofList_toList]

theorem next?_dot (rest : List Char) :
    Lexeme.next? ('.' :: rest) = .ok (some (⟨[], ['.'], .symbol .dot⟩, rest)) :=
  Lexeme.next?_eq_some_iff.2 ⟨'.', rest, rfl, rfl, rfl, rfl, rfl⟩

theorem begins_path {path : List String} (h : IsPath path) (hfree : IsFree path) (rest : List Char)
    (hrest : ∀ c ∈ rest.head?, isWordChar c = false) :
    Begins (pathChars path ++ rest) (pathLexemes path) rest := by
  induction h with
  | single hs =>
      rw [pathChars_singleton]
      exact .cons (next?_word hs (hfree _ List.mem_cons_self) rest hrest) .nil
  | @more s path hs h ih =>
      obtain ⟨hfirst, hmore⟩ := List.forall_mem_cons.1 hfree
      obtain ⟨s', path, rfl⟩ := List.exists_cons_of_ne_nil h.ne_nil
      have hdot : ∀ c ∈ ('.' :: (pathChars (s' :: path) ++ rest)).head?, isWordChar c = false := by
        rintro c ⟨⟩
        rfl
      rw [pathChars_cons s h.ne_nil, List.append_assoc, List.cons_append]
      exact .cons (next?_word hs hfirst _ hdot) (.cons (next?_dot _) (ih hmore))

theorem tokensOf_path (path : List String) : Lexeme.tokensOf (pathLexemes path) = (Expr.path path).print := by
  match path with
  | [] => rfl
  | [s] => rfl
  | s :: s' :: path =>
      have ih := tokensOf_path (s' :: path)
      simp only [pathLexemes, Lexeme.tokensOf_cons, ih]
      rfl

/-- A scan passes tokens that are no braces. -/
theorem staysOpen_of_no_brace {depth : Nat} (hdepth : 0 < depth) {ts : List Token}
    (h : ∀ t ∈ ts, t.opens = false ∧ t.closes = false) : StaysOpen depth ts ∧ depthBehind depth ts = depth := by
  induction ts with
  | nil => exact ⟨staysOpen_nil.2 hdepth, rfl⟩
  | cons t ts ih =>
      obtain ⟨⟨hopens, hcloses⟩, hmore⟩ := List.forall_mem_cons.1 h
      have hfirst : StaysOpen depth [t] := staysOpen_singleton.2 ⟨hdepth, by simp [hcloses]⟩
      have hsame : depthBehind depth [t] = depth := by
        simp [depthBehind, openings_cons, closings_cons, hopens, hcloses]
      refine ⟨staysOpen_cons.2 ⟨hfirst, ?_⟩, ?_⟩
      · rw [hsame]
        exact (ih hmore).1
      · have hboth : depthBehind depth ([t] ++ ts) = depthBehind (depthBehind depth [t]) ts :=
          hfirst.depthBehind_append
        rwa [hsame, (ih hmore).2] at hboth

theorem not_brace_of_mem_path (path : List String) :
    ∀ t ∈ Lexeme.tokensOf (pathLexemes path), t.opens = false ∧ t.closes = false := by
  match path with
  | [] => nofun
  | [s] => simp [pathLexemes, Token.opens, Token.closes]
  | s :: s' :: path =>
      have ih := not_brace_of_mem_path (s' :: path)
      simp only [pathLexemes, Lexeme.tokensOf_cons, List.forall_mem_cons]
      exact ⟨⟨rfl, rfl⟩, ⟨rfl, rfl⟩, ih⟩

/-- The scan of a code line that is behind one open brace and holds a path, up to the brace that closes it. -/
theorem scanCode_path {path : List String} (h : IsPath path) (hfree : IsFree path) (rest : List Char) :
    scanCode 1 none (pathChars path ++ '}' :: rest) = .ok (.closed (pathChars path) rest) := by
  have hbrace : ∀ c ∈ ('}' :: rest).head?, isWordChar c = false := by
    rintro c ⟨⟩
    rfl
  have hbegins := begins_path h hfree _ hbrace
  obtain ⟨hopen, hdepth⟩ := staysOpen_of_no_brace Nat.one_pos (not_brace_of_mem_path path)
  have hnext : Lexeme.next? ('}' :: rest) = .ok (some (⟨[], ['}'], .symbol .closeBrace⟩, rest)) :=
    Lexeme.next?_closeBrace (rfl : allBlank [] = true) rest
  have htext : Lexeme.text (pathLexemes path) = pathChars path := by
    exact (List.append_cancel_right hbegins.eq_append).symm
  rw [scanCode_begins hbegins hopen, hdepth, scanCode_next? hnext, if_pos ⟨rfl, Nat.le_refl 1⟩, htext]
  simp [Except.map, CodeScan.after]

/-- A path is no statement: it begins with an identifier, and no assignment is behind it. -/
theorem not_isStatement_path {path : List String} (h : IsPath path) (hfree : IsFree path) :
    isStatement (pathChars path) = false := by
  obtain ⟨s, rest, hnext, hrest⟩ : ∃ s rest,
      Lexeme.next? (pathChars path) = .ok (some (⟨[], s.toList, .ident s⟩, rest)) ∧
      (Token.ident s).isAssigned (firstToken? rest) = false := by
    cases h with
    | @single s hs =>
        have hnext := next?_word hs (hfree s List.mem_cons_self) [] nofun
        rw [List.append_nil] at hnext
        exact ⟨s, [], by rw [pathChars_singleton, hnext], rfl⟩
    | @more s path hs h =>
        refine ⟨s, '.' :: pathChars path, ?_, by rw [firstToken?, next?_dot]; rfl⟩
        rw [pathChars_cons s h.ne_nil]
        refine next?_word hs (hfree s List.mem_cons_self) _ ?_
        rintro c ⟨⟩
        rfl
  rw [isStatement_eq, not_startsComment_of_next? hnext, firstToken?, hnext]
  simpa [Token.startsStatement] using hrest

/-! ## Expressions -/

/-- A path is the expression that it names. -/
theorem ofText_path {path : List String} (h : IsPath path) (hfree : IsFree path) (line : Nat) :
    Expr.ofText line (pathChars path) = .ok (.path path) := by
  have hbegins := begins_path h hfree [] nofun
  rw [List.append_nil] at hbegins
  have htokens := tokens_of_all (Lexeme.all_eq_ok_iff.2 ⟨[], hbegins, rfl⟩)
  rw [tokensOf_path] at htokens
  have hproper : (Expr.path path).Proper := h.ne_nil
  have form := (Expr.print_form line hproper).loosen (Expr.rank_known _) (u := .expr) trivial
    (Expr.looseness_rank_le _)
  exact (Expr.ofText_eq_ok_iff line htokens).2 form

end MailTemplate
