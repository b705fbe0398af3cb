import MailTemplate.Fragment
import MailTemplate.Proofs.Template.Scan

/-!
# The brace that closes

The brace that closes an inline expression is found in its characters, the one that closes a block among its
tokens. A brace that closes a block closes an expression (`ClosesAt.closing?`), and both are found whatever is
behind them (`closing?_behind`, `ClosesAt.with_behind`).
-/

namespace MailTemplate

open Text Fragment

/-! ## The brace that closes an expression -/

/-- Neither a brace nor a quotation mark: what a search for a closing brace passes by. -/
def IsPlain (c : Char) : Prop := c ≠ '{' ∧ c ≠ '}' ∧ c ≠ '"' ∧ c ≠ '\''

theorem isPlain_of_isBlank {c : Char} (h : isBlank c = true) : IsPlain c := by
  refine ⟨?_, ?_, ?_, ?_⟩ <;> rintro rfl <;> revert h <;> decide

theorem isPlain_of_isWordChar {c : Char} (h : isWordChar c = true ∨ c = '.') : IsPlain c := by
  refine ⟨?_, ?_, ?_, ?_⟩ <;> rintro rfl <;> revert h <;> decide

/-- The text up to a closing brace when `front` is passed before it. -/
def passing (front : List Char) (r : List Char × List Char) : List Char × List Char := (front ++ r.1, r.2)

@[simp]
theorem passing_nil : passing [] = id := rfl

@[simp]
theorem passing_comp (front back : List Char) : passing front ∘ passing back = passing (front ++ back) := by
  funext r
  simp [passing]

theorem closing?_close (cs : List Char) : closing? 0 none ('}' :: cs) = some ([], cs) := by
  simp [closing?.eq_def]

theorem closing?_inner (depth : Nat) (cs : List Char) :
    closing? (depth + 1) none ('}' :: cs) = (closing? depth none cs).map (passing ['}']) := by
  rw [closing?.eq_def]
  rfl

theorem closing?_cons {c : Char} (hc : c ≠ '}') (depth : Nat) (cs : List Char) :
    closing? depth none (c :: cs) =
      (closing? (if c = '{' then depth + 1 else depth) (if c = '"' || c = '\'' then some c else none) cs).map
        (passing [c]) := by
  rw [closing?.eq_def]
  simp only [hc, if_false]
  rfl

theorem closing?_plain {front : List Char} (hfront : ∀ c ∈ front, IsPlain c) (depth : Nat) (cs : List Char) :
    closing? depth none (front ++ cs) = (closing? depth none cs).map (passing front) := by
  induction front with
  | nil => simp
  | cons c front ih =>
      obtain ⟨⟨hopen, hclose, hdouble, hsingle⟩, hmore⟩ := List.forall_mem_cons.1 hfront
      rw [List.cons_append, closing?_cons hclose]
      simp [hopen, hdouble, hsingle, ih hmore]

/-- Between quotation marks the search goes on to the mark that ends the string. -/
theorem closing?_string {quote : Char} {cs text raw rest : List Char} (hquote : quote ≠ '\\')
    (h : readString quote cs = some (text, raw, rest)) (depth : Nat) :
    closing? depth (some quote) cs = (closing? depth none rest).map (passing raw) := by
  fun_induction readString quote cs generalizing text raw rest with
  | case1 => simp at h
  | case2 c cs ih =>
      obtain ⟨r, hr, he⟩ := Option.map_eq_some_iff.1 h
      cases he
      have hpassed : closing? depth (some quote) ('\\' :: c :: cs) =
          (closing? depth (some quote) cs).map (passing ['\\', c]) := by rw [closing?]; rfl
      rw [hpassed, ih hr, Option.map_map, passing_comp]
      rfl
  | case3 cs hq =>
      simp only [Option.some.injEq, Prod.mk.injEq] at h
      obtain ⟨rfl, rfl, rfl⟩ := h
      rw [closing?.eq_3 _ _ _ _ fun _ _ he => absurd he hquote, if_pos rfl]
      rfl
  | case4 c cs hc hne ih =>
      obtain ⟨r, hr, he⟩ := Option.map_eq_some_iff.1 h
      cases he
      have hpassed : closing? depth (some quote) (c :: cs) =
          (closing? depth (some quote) cs).map (passing [c]) := by
        rw [closing?.eq_3 _ _ _ _ hc, if_neg hne]
        rfl
      rw [hpassed, ih hr, Option.map_map, passing_comp]
      rfl

/-- What is behind the closing brace does not matter. -/
theorem closing?_behind {depth : Nat} {quote : Option Char} {cs body rest : List Char}
    (h : closing? depth quote cs = some (body, rest)) (rest' : List Char) :
    closing? depth quote (body ++ '}' :: rest') = some (body, rest') := by
  fun_induction closing? depth quote cs generalizing body rest with
  | case1 => simp at h
  | case2 _ _ _ _ ih =>
      obtain ⟨r, hr, he⟩ := Option.map_eq_some_iff.1 h
      cases he
      simp [closing?, ih hr]
  | case3 depth q c cs hc ih =>
      obtain ⟨r, hr, he⟩ := Option.map_eq_some_iff.1 h
      cases he
      -- A backslash at the end of the text does not close anything.
      have hback : c ≠ '\\' := by
        rintro rfl
        cases cs with
        | nil => simp [closing?] at hr
        | cons d cs => exact hc d cs rfl rfl
      rw [List.cons_append, closing?.eq_3 _ _ _ _ fun _ _ he => absurd he hback, ih hr]
      rfl
  | case4 =>
      cases h
      exact closing?_close rest'
  | case5 cs depth ih =>
      obtain ⟨r, hr, he⟩ := Option.map_eq_some_iff.1 h
      cases he
      rw [List.cons_append, closing?_inner, ih hr]
      rfl
  | case6 depth c cs hc =>
      rename_i ih
      obtain ⟨r, hr, he⟩ := Option.map_eq_some_iff.1 h
      cases he
      rw [List.cons_append, closing?_cons hc, ih hr]
      rfl

/-! ## The brace that closes a block -/

theorem isPlain_of_mem_symbol {s : Symbol} (hopen : s ≠ .openBrace) (hclose : s ≠ .closeBrace) :
    ∀ c ∈ s.spelling, IsPlain c := by
  cases s <;> simp_all [Symbol.spelling, IsPlain]

/-- The search for the brace that closes an expression passes a token, as the count of the braces of a block
does. -/
theorem closing?_token {c : Char} {cs spelling rest : List Char} {t : Token} {depth depth' : Nat}
    (h : readToken c cs = .ok (t, spelling, rest)) (hdepth : depthBehind (depth + 1) [t] = depth' + 1) :
    closing? depth none (c :: cs) = (closing? depth' none rest).map (passing spelling) := by
  have hsame (hopen : t.opens = false) (hclose : t.closes = false) : depth' = depth := by
    simp [depthBehind, openings_cons, closings_cons, hopen, hclose] at hdepth
    exact hdepth.symm
  have hspelling := (readToken_eq h).1
  rcases readToken_chars h with ⟨text, raw, rfl, rfl, hquote, hs⟩ | ⟨s, rfl, rfl⟩ | ⟨hsymbol, hchars⟩
  · obtain rfl := hsame rfl rfl
    have hstring {quote : Char} (hquote : quote ≠ '\\') (hs : readString quote cs = some (text, raw, rest)) :=
      closing?_string hquote hs depth'
    rcases hquote with rfl | rfl
    all_goals
      rw [closing?_cons (by decide)]
      simp [hstring (by decide) hs]
  · rw [hspelling]
    by_cases hopen : s = .openBrace
    · subst hopen
      obtain rfl : depth' = depth + 1 := by
        simp [depthBehind, openings_cons, closings_cons, Token.opens, Token.closes] at hdepth
        exact hdepth.symm
      exact closing?_cons (by decide) depth rest
    · by_cases hclose : s = .closeBrace
      · subst hclose
        obtain rfl : depth = depth' + 1 := by
          simp [depthBehind, openings_cons, closings_cons, Token.opens, Token.closes] at hdepth
          exact hdepth
        exact closing?_inner depth' rest
      · rw [closing?_plain (isPlain_of_mem_symbol hopen hclose)]
        have hopens : (Token.symbol s).opens = false := Token.opens_eq_false (by simpa using hopen)
        have hcloses : (Token.symbol s).closes = false := Token.closes_eq_false (by simpa using hclose)
        rw [hsame hopens hcloses]
  · rw [hspelling, closing?_plain fun d hd => isPlain_of_isWordChar (hchars d hd)]
    rw [hsame (Token.opens_eq_false (hsymbol _)) (Token.closes_eq_false (hsymbol _))]

theorem closing?_next? {cs rest : List Char} {l : Lexeme} {depth depth' : Nat}
    (hnext : Lexeme.next? cs = .ok (some (l, rest))) (hdepth : depthBehind (depth + 1) [l.token] = depth' + 1) :
    closing? depth none cs = (closing? depth' none rest).map (passing (l.gap ++ l.spelling)) := by
  obtain ⟨c, r, rfl, hgap, _, _, htoken⟩ := Lexeme.next?_eq_some_iff.1 hnext
  have hblank : ∀ d ∈ l.gap, IsPlain d := fun d hd => isPlain_of_isBlank (List.all_eq_true.1 hgap d hd)
  rw [closing?_plain hblank, closing?_token htoken hdepth, Option.map_map, passing_comp]

theorem readToken_of_closes {c : Char} {cs spelling rest : List Char} {t : Token}
    (h : readToken c cs = .ok (t, spelling, rest)) (hcloses : t.closes = true) : spelling = ['}'] := by
  rw [Token.eq_of_closes hcloses] at h
  rcases readToken_chars h with ⟨_, _, ht, _⟩ | ⟨s, ht, rfl⟩ | ⟨hsymbol, _⟩
  · cases ht
  · cases ht
    rfl
  · exact absurd rfl (hsymbol _)

/-- `ClosesAt depth cs before after`: the tokens of `cs` are passed up to a brace that closes the outermost of `depth`
open ones; `before` is before that brace and `after` behind it. -/
inductive ClosesAt : Nat → List Char → List Char → List Char → Prop
  | here {depth cs l after} : Lexeme.next? cs = .ok (some (l, after)) → l.token.closes = true → depth ≤ 1 →
      ClosesAt depth cs l.gap after
  | behind {depth cs l mid before after} : Lexeme.next? cs = .ok (some (l, mid)) →
      ¬ (l.token.closes = true ∧ depth ≤ 1) → ClosesAt (depthBehind depth [l.token]) mid before after →
      ClosesAt depth cs (l.gap ++ l.spelling ++ before) after

theorem scanCode_closed_iff {depth : Nat} {last : Option Token} {cs before after : List Char} :
    scanCode depth last cs = .ok (.closed before after) ↔ ClosesAt depth cs before after := by
  constructor
  · intro h
    induction cs using Lexeme.induction generalizing depth last before with
    | step cs ih =>
        match hnext : Lexeme.next? cs with
        | .error e =>
            rw [scanCode_of_error hnext] at h
            cases h
        | .ok none =>
            rw [scanCode_of_nothing hnext] at h
            cases h
        | .ok (some (l, mid)) =>
            rw [scanCode_next? hnext] at h
            split at h
            · rename_i hclose
              cases h
              exact .here hnext hclose.1 hclose.2
            · rename_i hclose
              obtain ⟨scan, hscan, he⟩ := map_eq_ok_iff.1 h
              cases scan with
              | opened => cases he
              | closed =>
                  cases he
                  exact .behind hnext hclose (ih l mid hnext hscan)
  · intro h
    induction h generalizing last with
    | here hnext hcloses hdepth => rw [scanCode_next? hnext, if_pos ⟨hcloses, hdepth⟩]
    | behind hnext hclose _ ih =>
        rw [scanCode_next? hnext, if_neg hclose, ih]
        rfl

theorem readToken_closeBrace (cs : List Char) : readToken '}' cs = .ok (.symbol .closeBrace, ['}'], cs) := rfl

theorem Lexeme.next?_closeBrace {gap : List Char} (hgap : allBlank gap = true) (cs : List Char) :
    next? (gap ++ '}' :: cs) = .ok (some (⟨gap, ['}'], .symbol .closeBrace⟩, cs)) :=
  next?_eq_some_iff.2 ⟨'}', cs, rfl, hgap, rfl, rfl, readToken_closeBrace cs⟩

theorem Lexeme.allBlank_gap {cs rest : List Char} {l : Lexeme} (h : next? cs = .ok (some (l, rest))) :
    allBlank l.gap = true := by
  obtain ⟨_, _, _, hgap, _⟩ := next?_eq_some_iff.1 h
  exact hgap

namespace ClosesAt

variable {depth : Nat} {cs before after : List Char}

/-- The brace that closes the outermost of `depth + 1` braces closes an expression with `depth` braces open in it. -/
theorem closing? (h : ClosesAt (depth + 1) cs before after) : closing? depth none cs = some (before, after) := by
  generalize hdepth : depth + 1 = open' at h
  induction h generalizing depth with
  | @here _ cs l after hnext hcloses hle =>
      obtain rfl : depth = 0 := by omega
      obtain ⟨c, r, rfl, hgap, _, _, htoken⟩ := Lexeme.next?_eq_some_iff.1 hnext
      have hblank : ∀ d ∈ l.gap, IsPlain d := fun d hd => isPlain_of_isBlank (List.all_eq_true.1 hgap d hd)
      have hbrace := (readToken_eq htoken).1
      rw [readToken_of_closes htoken hcloses] at hbrace
      rw [closing?_plain hblank, hbrace, List.singleton_append, closing?_close]
      simp [passing]
  | @behind _ cs l mid before after hnext hclose _ ih =>
      subst hdepth
      have hpos := (staysOpen_singleton.2 ⟨Nat.succ_pos depth, hclose⟩).depthBehind_pos
      obtain ⟨depth', hdepth⟩ := Nat.exists_eq_add_one_of_ne_zero hpos.ne'
      rw [closing?_next? hnext hdepth, ih hdepth.symm]
      rfl

theorem eq_append (h : ClosesAt depth cs before after) (hdepth : 0 < depth) : cs = before ++ '}' :: after := by
  obtain ⟨depth, rfl⟩ := Nat.exists_eq_add_one_of_ne_zero hdepth.ne'
  exact closing?_eq h.closing?

/-- What is behind the closing brace does not matter. -/
theorem with_behind (h : ClosesAt depth cs before after) (hdepth : 0 < depth) (after' : List Char) :
    ClosesAt depth (before ++ '}' :: after') before after' := by
  induction h with
  | @here _ _ l _ hnext _ hle =>
      exact .here (l := ⟨l.gap, ['}'], .symbol .closeBrace⟩)
        (Lexeme.next?_closeBrace (Lexeme.allBlank_gap hnext) after') rfl hle
  | @behind depth _ l mid before after hnext hclose hmid ih =>
      have hpos := (staysOpen_singleton.2 ⟨hdepth, hclose⟩).depthBehind_pos
      rw [hmid.eq_append hpos] at hnext
      have hnext' := Lexeme.next?_like hnext (Lexeme.allBlank_gap hnext)
        (.of_barrier (by decide) before after after')
      rw [List.append_assoc]
      exact .behind hnext' hclose (ih hpos)

end ClosesAt

end MailTemplate
