import MailTemplate.Proofs.Template.Comments
import MailTemplate.Proofs.Token.Lexemes

/-!
# Tokens in their text

The tokens of a text lie one behind another in it, with blanks between them (`Tiles`), and a text that is cut where a
token starts gives the tokens before the cut and those behind it (`tokens_tile`).
-/

namespace MailTemplate

open Text

/-! ## Places in a text -/

/-- What a text holds between two places in it, which are given in bytes and lie between characters. -/
inductive PartAt : String → Nat → Nat → String → Prop
  | intro (front part back : String) :
      PartAt (front ++ part ++ back) front.utf8ByteSize (front.utf8ByteSize + part.utf8ByteSize) part

/-- What may stand behind the last token: blanks, and a comment behind them. -/
inductive Trails : String → Prop
  | blank {rest} : allBlank rest.toList = true → Trails rest
  | comment {gap : String} (text : String) : allBlank gap.toList = true → Trails (gap ++ "//" ++ text)

/-- `Tiles text start ts`: behind the place `start` the text holds the tokens `ts` at their places, each with blanks
before it, and then nothing that is a token. -/
inductive Tiles (text : String) : Nat → List (Token × Nat × Nat) → Prop
  | last {start rest} : PartAt text start text.utf8ByteSize rest → Trails rest → Tiles text start []
  | token {start first last gap spelling t ts} : PartAt text start first gap → allBlank gap.toList = true →
      PartAt text first last spelling → first < last → Tiles text last ts → Tiles text start ((t, first, last) :: ts)

/-- The tokens of a text with where they start and end in it, in bytes. -/
def tokenSpans (text : String) : Except SyntaxCause (List (Token × Nat × Nat)) :=
  (Lexeme.all text.toList).map (Lexeme.spans 0)

/-- A token with its place moved on. -/
def moveOn (n : Nat) (s : Token × Nat × Nat) : Token × Nat × Nat := (s.1, n + s.2.1, n + s.2.2)

namespace Lexeme

theorem byteLength_eq (cs : List Char) : byteLength cs = (String.ofList cs).utf8ByteSize := by
  induction cs with
  | nil => rfl
  | cons c cs ih =>
      have hcons : String.ofList (c :: cs) = String.singleton c ++ String.ofList cs := by
        rw [String.singleton_eq_ofList, ← String.ofList_append, List.singleton_append]
      rw [hcons, String.utf8ByteSize_append, ← ih]
      simp [byteLength]

theorem byteLength_append (cs ds : List Char) : byteLength (cs ++ ds) = byteLength cs + byteLength ds := by
  simp [byteLength_eq, String.ofList_append, String.utf8ByteSize_append]

theorem byteLength_pos {cs : List Char} (h : cs ≠ []) : 0 < byteLength cs := by
  obtain ⟨c, cs, rfl⟩ := List.exists_cons_of_ne_nil h
  have := c.utf8Size_pos
  simp only [byteLength, List.foldr_cons]
  omega

/-! ## Places of lexemes -/

theorem length_spans (start : Nat) (ls : List Lexeme) : (spans start ls).length = ls.length := by
  induction ls generalizing start with
  | nil => rfl
  | cons l ls ih => simp only [spans, List.length_cons, ih]

theorem spans_append (start : Nat) (ls ms : List Lexeme) :
    spans start (ls ++ ms) = spans start ls ++ spans (start + byteLength (text ls)) ms := by
  induction ls generalizing start with
  | nil => rfl
  | cons l ls ih =>
      have hlast : start + byteLength l.gap + byteLength l.spelling + byteLength (text ls) =
          start + byteLength (text (l :: ls)) := by
        rw [text_cons, byteLength_append, byteLength_append]
        omega
      simp only [List.cons_append, spans, ih, hlast]

theorem spans_moveOn (n start : Nat) (ls : List Lexeme) : (spans start ls).map (moveOn n) = spans (n + start) ls := by
  induction ls generalizing start with
  | nil => rfl
  | cons l ls ih => simp only [spans, List.map_cons, ih, moveOn, Nat.add_assoc]

end Lexeme

theorem partAt_ofList (front part back : List Char) :
    PartAt (String.ofList (front ++ part ++ back)) (Lexeme.byteLength front) (Lexeme.byteLength (front ++ part))
      (String.ofList part) := by
  rw [Lexeme.byteLength_append, Lexeme.byteLength_eq, Lexeme.byteLength_eq, String.ofList_append, String.ofList_append]
  exact .intro _ _ _

theorem trails_of_nothing {rest : List Char} (h : Lexeme.next? rest = .ok none) : Trails (String.ofList rest) := by
  rcases Lexeme.nothing_of_next? h with hblank | hcomment
  · exact .blank (by rwa [String.toList_ofList])
  · obtain ⟨more, hmore⟩ := startsComment_eq_true hcomment
    have hrest : String.ofList rest = String.ofList (leadingBlanks rest) ++ "//" ++ String.ofList more := by
      rw [show "//" = String.ofList ['/', '/'] from rfl, ← String.ofList_append, ← String.ofList_append,
        List.append_assoc, List.cons_append, List.cons_append, List.nil_append, ← hmore,
        leadingBlanks_append_trimStart]
    rw [hrest]
    exact .comment _ (by rw [String.toList_ofList]; exact allBlank_leadingBlanks rest)

/-- The lexemes of a text tile what is behind any other text. -/
theorem Begins.tiles {cs rest : List Char} {ls : List Lexeme} (h : Begins cs ls rest)
    (hrest : Lexeme.next? rest = .ok none) (front : List Char) :
    Tiles (String.ofList (front ++ cs)) (Lexeme.byteLength front) (Lexeme.spans (Lexeme.byteLength front) ls) := by
  induction h generalizing front with
  | @nil cs =>
      have hplace := partAt_ofList front cs []
      rw [List.append_nil, Lexeme.byteLength_eq (front ++ cs)] at hplace
      exact .last hplace (trails_of_nothing hrest)
  | @cons cs mid rest l ls hnext h ih =>
      obtain ⟨_, _, _, hgap, _⟩ := Lexeme.next?_eq_some_iff.1 hnext
      obtain ⟨hcs, hne⟩ := Lexeme.next?_eq hnext
      have hbefore := partAt_ofList front l.gap (l.spelling ++ mid)
      have hplace := partAt_ofList (front ++ l.gap) l.spelling mid
      have hmore := ih hrest (front ++ l.gap ++ l.spelling)
      have hpos := Lexeme.byteLength_pos hne
      simp only [hcs, Lexeme.spans, Lexeme.byteLength_append, List.append_assoc, Nat.add_assoc]
        at hbefore hplace hmore ⊢
      refine .token hbefore (by rwa [String.toList_ofList]) hplace ?_ hmore
      omega

/-- Lexemes around the `k`th one. -/
theorem exists_around {ls : List Lexeme} {k : Nat} (hk : k < ls.length) :
    ∃ before l behind, ls = before ++ l :: behind ∧ before.length = k :=
  ⟨ls.take k, ls[k], ls.drop (k + 1), by rw [List.getElem_cons_drop, List.take_append_drop],
    List.length_take_of_le hk.le⟩

/-- A text that is cut where a lexeme is, without the blanks before it, holds the lexemes before the cut and those from
it on. -/
theorem Begins.cut_at {cs rest : List Char} {before behind : List Lexeme} {l : Lexeme}
    (h : Begins cs (before ++ l :: behind) rest) (hrest : Lexeme.next? rest = .ok none) :
    ∃ back, cs = Lexeme.text before ++ l.gap ++ back ∧ Lexeme.all (Lexeme.text before ++ l.gap) = .ok before ∧
      Lexeme.all back = .ok ({ l with gap := [] } :: behind) := by
  obtain ⟨mid, hbefore, hmid⟩ := h.split
  cases hmid with
  | @cons _ more _ _ _ hnext hbehind =>
      obtain ⟨_, _, _, hgap, _⟩ := Lexeme.next?_eq_some_iff.1 hnext
      obtain ⟨hspelled, _⟩ := Lexeme.next?_eq hnext
      refine ⟨l.spelling ++ more, ?_, ?_, ?_⟩
      · rw [hbefore.eq_append, hspelled, List.append_assoc, List.append_assoc]
      · have hfront : l.gap <+: mid := by
          rw [hspelled, List.append_assoc]
          exact List.prefix_append _ _
        exact Lexeme.all_eq_ok_iff.2 ⟨l.gap, hbefore.cut hfront, Lexeme.next?_of_nothing (.inl hgap)⟩
      · have hfirst : Lexeme.next? (l.spelling ++ more) = .ok (some ({ l with gap := [] }, more)) :=
          Lexeme.next?_cut hnext (rfl : allBlank [] = true) (List.prefix_refl more)
        exact Lexeme.all_eq_ok_iff.2 ⟨rest, .cons hfirst hbehind, hrest⟩

/-- A text that is cut where a token starts gives the tokens before it, and from it on. -/
theorem tokenSpans_cut {text : String} {ts : List (Token × Nat × Nat)} (h : tokenSpans text = .ok ts) {k : Nat}
    {t : Token} {first last : Nat} (hk : ts[k]? = some (t, first, last)) :
    ∃ front back moved, text = front ++ back ∧ front.utf8ByteSize = first ∧ tokenSpans front = .ok (ts.take k) ∧
      tokenSpans back = .ok moved ∧ moved.map (moveOn first) = ts.drop k := by
  obtain ⟨ls, hls, rfl⟩ := map_eq_ok_iff.1 h
  obtain ⟨rest, hbegins, hrest⟩ := Lexeme.all_eq_ok_iff.1 hls
  obtain ⟨hlt, _⟩ := List.getElem?_eq_some_iff.1 hk
  rw [Lexeme.length_spans] at hlt
  obtain ⟨before, l, behind, rfl, rfl⟩ := exists_around hlt
  obtain ⟨back, htext, hfront, hback⟩ := hbegins.cut_at hrest
  have hspans := Lexeme.spans_append 0 before (l :: behind)
  have hlength := Lexeme.length_spans 0 before
  rw [hspans, ← hlength, List.getElem?_append_right (Nat.le_refl _), Nat.sub_self] at hk
  obtain ⟨rfl, rfl, rfl⟩ : l.token = t ∧ 0 + Lexeme.byteLength (Lexeme.text before) + Lexeme.byteLength l.gap = first ∧
      0 + Lexeme.byteLength (Lexeme.text before) + Lexeme.byteLength l.gap + Lexeme.byteLength l.spelling = last := by
    simpa [Lexeme.spans] using hk
  refine ⟨String.ofList (Lexeme.text before ++ l.gap), String.ofList back,
    Lexeme.spans 0 ({ l with gap := [] } :: behind), ?_, ?_, ?_, ?_, ?_⟩
  · rw [← String.ofList_append, ← htext, String.ofList_toList]
  · rw [← Lexeme.byteLength_eq, Lexeme.byteLength_append, Nat.zero_add]
  · rw [tokenSpans, String.toList_ofList, hfront, hspans, List.take_left' hlength]
    rfl
  · rw [tokenSpans, String.toList_ofList, hback]
    rfl
  · rw [Lexeme.spans_moveOn, hspans, List.drop_left' hlength]
    rfl

/-- The tokens of a text tile it, and the text can be cut where any of them starts. -/
theorem tokens_tile {text : String} {ts : List (Token × Nat × Nat)} (h : tokenSpans text = .ok ts) :
    Tiles text 0 ts ∧ ∀ (k : Nat) (t : Token) (first last : Nat), ts[k]? = some (t, first, last) →
      ∃ front back moved, text = front ++ back ∧ front.utf8ByteSize = first ∧ tokenSpans front = .ok (ts.take k) ∧
        tokenSpans back = .ok moved ∧ moved.map (moveOn first) = ts.drop k := by
  refine ⟨?_, fun k t first last hk => tokenSpans_cut h hk⟩
  obtain ⟨ls, hls, rfl⟩ := map_eq_ok_iff.1 h
  obtain ⟨rest, hbegins, hrest⟩ := Lexeme.all_eq_ok_iff.1 hls
  simpa [Lexeme.byteLength] using hbegins.tiles hrest []

/-- A text with a character of two bytes in a string, cut before the string, and with a comment behind its tokens. -/
theorem tokens_tile_string :
    tokenSpans " x= 'é\x7d'++ // y" =
        .ok [(.ident "x", 1, 2), (.symbol .assign, 2, 3), (.string "é\x7d", 4, 9), (.symbol .increment, 9, 11)] ∧
      Tiles " x= 'é\x7d'++ // y" 0
        [(.ident "x", 1, 2), (.symbol .assign, 2, 3), (.string "é\x7d", 4, 9), (.symbol .increment, 9, 11)] ∧
      ∃ front back moved, " x= 'é\x7d'++ // y" = front ++ back ∧ front.utf8ByteSize = 4 ∧
        tokenSpans front = .ok [(.ident "x", 1, 2), (.symbol .assign, 2, 3)] ∧ tokenSpans back = .ok moved ∧
        moved.map (moveOn 4) = [(.string "é\x7d", 4, 9), (.symbol .increment, 9, 11)] := by
  have h : tokenSpans " x= 'é\x7d'++ // y" =
      .ok [(.ident "x", 1, 2), (.symbol .assign, 2, 3), (.string "é\x7d", 4, 9), (.symbol .increment, 9, 11)] := by
    cbv
  exact ⟨h, (tokens_tile h).1, (tokens_tile h).2 2 _ 4 9 rfl⟩

end MailTemplate
