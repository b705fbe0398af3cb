import MailTemplate.Proofs.Template.OpenBlocks
import MailTemplate.Proofs.Token.Braces
import MailTemplate.Proofs.Token.Lexemes

/-!
# Scanning a line of code

A scan passes tokens as long as the block stays open behind them (`scanCode_begins`), and ends where
the block closes or the line holds no more tokens (`scanCode_eq_ok`).
-/

namespace MailTemplate

open Text

/-- The tokens of some lexemes. -/
def Lexeme.tokensOf (ls : List Lexeme) : List Token := ls.map Lexeme.token

@[simp]
theorem Lexeme.tokensOf_nil : tokensOf [] = [] := rfl

@[simp]
theorem Lexeme.tokensOf_cons (l : Lexeme) (ls : List Lexeme) :
    tokensOf (l :: ls) = l.token :: tokensOf ls := rfl

@[simp]
theorem Lexeme.tokensOf_append (ls ms : List Lexeme) :
    tokensOf (ls ++ ms) = tokensOf ls ++ tokensOf ms := List.map_append

theorem CodeScan.after_append (front mid : List Char) (scan : CodeScan) :
    (scan.after mid).after front = scan.after (front ++ mid) := by
  cases scan <;> simp [after]

theorem CodeScan.after_nil (scan : CodeScan) : scan.after [] = scan := by
  cases scan <;> rfl

/-- The token of a lexeme closes the outermost of `depth` braces, or the scan goes on behind it. -/
theorem scanCode_next? {depth : Nat} {last : Option Token} {cs rest : List Char} {l : Lexeme}
    (hnext : Lexeme.next? cs = .ok (some (l, rest))) :
    scanCode depth last cs =
      if l.token.closes = true ∧ depth ≤ 1 then .ok (.closed l.gap rest)
      else (scanCode (depthBehind depth [l.token]) (some l.token) rest).map
        (.after (l.gap ++ l.spelling)) := by
  rw [scanCode.eq_def]
  split
  · simp_all
  · simp_all
  · rename_i he
    rw [hnext] at he
    cases he
    simp only
    split
    · rename_i ht
      simp [ht, depthBehind, openings_cons, closings_cons, Token.opens, Token.closes]
    · rename_i ht
      simp [ht, depthBehind, openings_cons, closings_cons, Token.opens, Token.closes]
    · rename_i hopen hclose
      simp [depthBehind_singleton hopen hclose, Token.closes_eq_false hclose]

theorem scanCode_of_error {depth : Nat} {last : Option Token} {cs : List Char} {e : SyntaxCause}
    (h : Lexeme.next? cs = .error e) : scanCode depth last cs = .error e := by
  rw [scanCode.eq_def]
  split <;> simp_all

theorem getLast?_or (t : Token) (ts : List Token) (last : Option Token) :
    (t :: ts).getLast?.or last = ts.getLast?.or (some t) := by
  rw [List.getLast?_cons]
  cases ts.getLast? <;> rfl

theorem CodeScan.map_after (x : Except SyntaxCause CodeScan) (front mid : List Char) :
    (x.map (after mid)).map (after front) = x.map (after (front ++ mid)) := by
  cases x with
  | error e => rfl
  | ok scan => simp [Except.map, after_append]

theorem CodeScan.map_after_nil (x : Except SyntaxCause CodeScan) : x.map (after []) = x := by
  cases x with
  | error e => rfl
  | ok scan => simp [Except.map, after_nil]

/-- A scan passes tokens behind which the block stays open. -/
theorem scanCode_begins {depth : Nat} {last : Option Token} {cs rest : List Char} {ls : List Lexeme}
    (h : Begins cs ls rest) (hopen : StaysOpen depth (Lexeme.tokensOf ls)) :
    scanCode depth last cs =
      (scanCode (depthBehind depth (Lexeme.tokensOf ls)) ((Lexeme.tokensOf ls).getLast?.or last) rest).map
        (.after (Lexeme.text ls)) := by
  induction h generalizing depth last with
  | nil => exact (CodeScan.map_after_nil _).symm
  | @cons cs mid rest l ls hnext _ ih =>
      obtain ⟨hfirst, hmore⟩ := staysOpen_cons.1 hopen
      rw [scanCode_next? hnext, if_neg (staysOpen_singleton.1 hfirst).2, ih hmore,
        CodeScan.map_after, Lexeme.tokensOf_cons, getLast?_or, ← hfirst.depthBehind_append]
      rfl

/-- Where a scan ends: behind the last token, or at the brace that closes the block. -/
inductive ScanEnds (depth : Nat) (last : Option Token) (rest : List Char) : CodeScan → Prop
  | opened : Lexeme.next? rest = .ok none → ScanEnds depth last rest (.opened depth last)
  | closed {l after} : depth ≤ 1 → l.token = .symbol .closeBrace →
      Lexeme.next? rest = .ok (some (l, after)) → ScanEnds depth last rest (.closed l.gap after)

theorem scanCode_eq_ok {depth : Nat} {last : Option Token} {cs : List Char} {scan : CodeScan}
    (hdepth : 0 < depth) (h : scanCode depth last cs = .ok scan) :
    ∃ ls rest scan', Begins cs ls rest ∧ StaysOpen depth (Lexeme.tokensOf ls) ∧
      ScanEnds (depthBehind depth (Lexeme.tokensOf ls)) ((Lexeme.tokensOf ls).getLast?.or last) rest scan' ∧
      scan = scan'.after (Lexeme.text ls) := by
  induction cs using Lexeme.induction generalizing depth last scan with
  | step cs ih =>
      cases hnext : Lexeme.next? cs with
      | error e =>
          rw [scanCode_of_error hnext] at h
          cases h
      | ok next =>
          cases next with
          | none =>
              rw [scanCode_of_nothing hnext] at h
              cases h
              exact ⟨[], cs, _, .nil, staysOpen_nil.2 hdepth, .opened hnext, rfl⟩
          | some next =>
              obtain ⟨l, mid⟩ := next
              rw [scanCode_next? hnext] at h
              split at h
              · rename_i hclose
                cases h
                exact ⟨[], cs, _, .nil, staysOpen_nil.2 hdepth,
                  .closed hclose.2 (Token.eq_of_closes hclose.1) hnext, rfl⟩
              · rename_i hclose
                have hfirst := staysOpen_singleton.2 ⟨hdepth, hclose⟩
                obtain ⟨scan, hscan, rfl⟩ := map_eq_ok_iff.1 h
                obtain ⟨ls, rest, scan', hbegins, hopen, hends, rfl⟩ :=
                  ih l mid hnext hfirst.depthBehind_pos hscan
                refine ⟨l :: ls, rest, scan', .cons hnext hbegins, staysOpen_cons.2 ⟨hfirst, hopen⟩, ?_, ?_⟩
                · rw [Lexeme.tokensOf_cons, getLast?_or]
                  rwa [← hfirst.depthBehind_append] at hends
                · rw [CodeScan.after_append]
                  rfl

/-! ## The tokens of a scanned line -/

/-- The tokens that a scan passes, up to the brace that closes the block. -/
def passedTokens (depth : Nat) (cs : List Char) : List Token :=
  match h : Lexeme.next? cs with
  | .ok (some (l, rest)) =>
      have := Lexeme.length_of_next? h
      match l.token with
      | .symbol .openBrace => l.token :: passedTokens (depth + 1) rest
      | .symbol .closeBrace => if depth ≤ 1 then [] else l.token :: passedTokens (depth - 1) rest
      | _ => l.token :: passedTokens depth rest
  | _ => []
termination_by cs.length

theorem passedTokens_of_nothing {depth : Nat} {cs : List Char} (h : Lexeme.next? cs = .ok none) :
    passedTokens depth cs = [] := by
  rw [passedTokens.eq_def]
  split <;> simp_all

theorem passedTokens_of_error {depth : Nat} {cs : List Char} {e : SyntaxCause}
    (h : Lexeme.next? cs = .error e) : passedTokens depth cs = [] := by
  rw [passedTokens.eq_def]
  split <;> simp_all

theorem passedTokens_next? {depth : Nat} {cs rest : List Char} {l : Lexeme}
    (hnext : Lexeme.next? cs = .ok (some (l, rest))) :
    passedTokens depth cs =
      if l.token.closes = true ∧ depth ≤ 1 then []
      else l.token :: passedTokens (depthBehind depth [l.token]) rest := by
  rw [passedTokens.eq_def]
  split
  · rename_i he
    rw [hnext] at he
    cases he
    simp only
    split
    · rename_i ht
      simp [ht, depthBehind, openings_cons, closings_cons, Token.opens, Token.closes]
    · rename_i ht
      simp [ht, depthBehind, openings_cons, closings_cons, Token.opens, Token.closes]
    · rename_i hopen hclose
      simp [depthBehind_singleton hopen hclose, Token.closes_eq_false hclose]
  · simp_all

/-- However a scan ends, the block is open behind all tokens that it passes. -/
theorem staysOpen_passedTokens {depth : Nat} (hdepth : 0 < depth) (cs : List Char) :
    StaysOpen depth (passedTokens depth cs) := by
  induction cs using Lexeme.induction generalizing depth with
  | step cs ih =>
      cases hnext : Lexeme.next? cs with
      | error e =>
          rw [passedTokens_of_error hnext]
          exact staysOpen_nil.2 hdepth
      | ok next =>
          cases next with
          | none =>
              rw [passedTokens_of_nothing hnext]
              exact staysOpen_nil.2 hdepth
          | some next =>
              obtain ⟨l, rest⟩ := next
              rw [passedTokens_next? hnext]
              split
              · exact staysOpen_nil.2 hdepth
              · rename_i hclose
                have hfirst := staysOpen_singleton.2 ⟨hdepth, hclose⟩
                exact staysOpen_cons.2 ⟨hfirst, ih l rest hnext hfirst.depthBehind_pos⟩

/-- What a scanned line holds for its block. -/
def CodeScan.code (cs : List Char) : CodeScan → List Char
  | closed before _ => before
  | opened .. => cs

/-- How many braces are open where a scan ends; the brace that closes the block is not passed. -/
def CodeScan.depth : CodeScan → Nat
  | closed .. => 1
  | opened depth _ => depth

section Ends

variable {depth : Nat} {last : Option Token} {cs rest : List Char} {ls : List Lexeme} {scan : CodeScan}

theorem passedTokens_begins (h : Begins cs ls rest) (hopen : StaysOpen depth (Lexeme.tokensOf ls)) :
    passedTokens depth cs =
      Lexeme.tokensOf ls ++ passedTokens (depthBehind depth (Lexeme.tokensOf ls)) rest := by
  induction h generalizing depth with
  | nil => rfl
  | cons hnext _ ih =>
      obtain ⟨hfirst, hmore⟩ := staysOpen_cons.1 hopen
      rw [passedTokens_next? hnext, if_neg (staysOpen_singleton.1 hfirst).2, ih hmore,
        Lexeme.tokensOf_cons, ← hfirst.depthBehind_append]
      rfl

theorem ScanEnds.passedTokens (h : ScanEnds depth last rest scan) :
    MailTemplate.passedTokens depth rest = [] := by
  cases h with
  | opened hnext => exact passedTokens_of_nothing hnext
  | closed hdepth hbrace hnext =>
      rw [passedTokens_next? hnext, if_pos]
      exact ⟨by rw [hbrace]; rfl, hdepth⟩

/-- The text that a block keeps of a line holds the lexemes that the scan passed. -/
theorem ScanEnds.all_code (h : ScanEnds depth last rest scan) (hbegins : Begins cs ls rest) :
    Lexeme.all ((scan.after (Lexeme.text ls)).code cs) = .ok ls := by
  cases h with
  | opened hnext => exact Lexeme.all_eq_ok_iff.2 ⟨rest, hbegins, hnext⟩
  | @closed l after _ _ hnext =>
      obtain ⟨c, r, hrest, hgap, _⟩ := Lexeme.next?_eq_some_iff.1 hnext
      have hcut : Begins (Lexeme.text ls ++ l.gap) ls l.gap :=
        hbegins.cut (by rw [hrest]; exact List.prefix_append _ _)
      exact Lexeme.all_eq_ok_iff.2 ⟨l.gap, hcut, Lexeme.next?_of_nothing (.inl hgap)⟩

theorem ScanEnds.depth_eq (h : ScanEnds depth last rest scan) (hdepth : 0 < depth) (front : List Char) :
    (scan.after front).depth = depth := by
  cases h with
  | opened => rfl
  | closed hle => exact Nat.le_antisymm hdepth hle

end Ends

theorem tokens_of_all {cs : List Char} {ls : List Lexeme} (h : Lexeme.all cs = .ok ls) :
    tokens cs = .ok (Lexeme.tokensOf ls) := by
  rw [tokens, h]
  rfl

/-- What a block keeps of a line gives the tokens that the scan of the line passed. -/
theorem tokens_code {depth : Nat} {cs : List Char} {scan : CodeScan} (hdepth : 0 < depth)
    (h : scanCode depth none cs = .ok scan) :
    tokens (scan.code cs) = .ok (passedTokens depth cs) ∧
      depthBehind depth (passedTokens depth cs) = scan.depth := by
  obtain ⟨ls, rest, scan, hbegins, hopen, hends, rfl⟩ := scanCode_eq_ok hdepth h
  rw [passedTokens_begins hbegins hopen, hends.passedTokens, List.append_nil]
  exact ⟨tokens_of_all (hends.all_code hbegins), (hends.depth_eq hopen.depthBehind_pos _).symm⟩

end MailTemplate
