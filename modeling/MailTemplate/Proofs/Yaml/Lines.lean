import MailTemplate.Proofs.Yaml.Scalars
import MailTemplate.Yaml.Document

/-!
# Documents of lines

A document with a key and a value on each line is read as the mapping of the keys to the values, in their order
(`Document.ofText?_lines`).
-/

namespace MailTemplate.Yaml

/-! ## Lines -/

inductive ScalarForm : List Char → Scalar → Prop
  | plain {cs} : PlainForm cs → ScalarForm cs ⟨.plain, none, String.ofList cs⟩
  | quoted {cs s} : QuotedForm cs s → ScalarForm ('"' :: (cs ++ ['"'])) ⟨.quoted, none, String.ofList s⟩

/-- A key and its value, on a line of their own. -/
inductive LineForm : List Char → Scalar × Scalar → Prop
  | mk {key value k v} : ScalarForm key k → key.length ≤ maxKeyLength → ScalarForm value v →
      LineForm (key ++ ':' :: ' ' :: (value ++ ['\n'])) (k, v)

def Scalar.token (s : Scalar) : Token := .scalar s.style s.text

variable {c : Char} {cs rest more : List Char} {s : Scalar} {p : Cursor} {n i : Nat} {ts : List Token}
  {indent : Option Nat}

/-- How a scalar may begin. -/
def StartsScalar (c : Char) : Prop := c ∉ indicators ∧ isSpace c = false ∧ isBreak c = false ∨ c = '"'

theorem ScalarForm.head (h : ScalarForm cs s) : ∃ c more, cs = c :: more ∧ StartsScalar c := by
  cases h with
  | plain h =>
      obtain ⟨c, more, rfl⟩ := List.exists_cons_of_ne_nil h.ne_nil
      obtain ⟨hspace, hbreak, _⟩ := h.chars c List.mem_cons_self
      exact ⟨c, more, rfl, .inl ⟨h.head c rfl, hspace, hbreak⟩⟩
  | quoted => exact ⟨'"', _, rfl, .inr rfl⟩

theorem StartsScalar.atToken (h : StartsScalar c) (cs : List Char) : AtToken (c :: cs) := by
  rintro d ⟨⟩
  rcases h with ⟨hc, hspace, hbreak⟩ | rfl
  · refine ⟨hspace, hbreak, ?_, ?_⟩ <;> rintro rfl <;> exact hc (by decide)
  · decide

/-! ## Steps -/

theorem Cursor.skip_atToken (h : AtToken p.rest) (flow tabs : Bool) : p.skip flow tabs = p := by
  obtain ⟨line, column, index, rest⟩ := p
  cases rest with
  | nil => rfl
  | cons c rest =>
      obtain ⟨hspace, hbreak, hhash, hmark⟩ := h c rfl
      have hblank : c ≠ ' ' ∧ c ≠ '\t' := by simpa [isSpace] using hspace
      simp [skip, skipFrom, hbreak, hblank, hhash, hmark]

theorem Cursor.skip_blank {j : Nat} (h : AtToken rest) (flow tabs : Bool) :
    skip ⟨n, j, i, ' ' :: rest⟩ flow tabs = ⟨n, j + 1, i + 1, rest⟩ := by
  have hskip : skipFrom flow tabs false ⟨n, j + 1, i + 1, rest⟩ rest = _ := skip_atToken (p := ⟨_, _, _, _⟩) h flow tabs
  simpa [skip, skipFrom, isBreak, next] using hskip

theorem Cursor.skip_break {j : Nat} (h : AtToken rest) (flow tabs : Bool) :
    skip ⟨n, j, i, '\n' :: rest⟩ flow tabs = ⟨n + 1, 0, i + 1, rest⟩ := by
  have hskip : skipFrom flow flow false ⟨n + 1, 0, i + 1, rest⟩ rest = _ := skip_atToken (p := ⟨_, _, _, _⟩) h flow flow
  simpa [skip, skipFrom, isBreak, next] using hskip

namespace Layout

/-- At a token nothing is skipped. -/
theorem settle?_atToken {l : Layout} (h : AtToken l.cursor.rest) (hheld : l.held.any (·.isStale l.cursor) = false)
    (hindent : l.indent.any (l.cursor.column < ·) = false) : l.settle? = some l := by
  simp only [settle?, Cursor.skip_atToken h]
  simp [hheld, hindent]

theorem readAll?_congr {l l' : Layout} (h : l.settle? = l'.settle?) (fuel : Nat) :
    l.readAll? fuel = l'.readAll? fuel := by
  cases fuel with
  | zero => rfl
  | succ fuel => rw [readAll?, readAll?, h]

theorem readToken?_scalar {l : Layout} (hc : StartsScalar c) (hrest : l.cursor.rest = c :: cs) :
    l.readToken? c cs = l.readScalar? c cs := by
  have hnot : ∀ d ∈ ['%', '-', '.', '{', '}', ',', '?', ':', '*', '&', '!'], c ≠ d := by
    rcases hc with ⟨hc, _⟩ | rfl
    · rintro d hd rfl
      have hall : ['%', '-', '.', '{', '}', ',', '?', ':', '*', '&', '!'] ⊆ indicators := by simp [indicators]
      exact hc (hall hd)
    · simp
  have hmark (d : Char) (hd : c ≠ d) : l.cursor.atMarker d = false := by
    simp [Cursor.atMarker, hrest, List.replicate, Ne.symm hd]
  have hdash := hmark '-' (hnot _ (by simp))
  have hdot := hmark '.' (hnot _ (by simp))
  simp only [List.forall_mem_cons] at hnot
  simp [readToken?, hdash, hdot, hnot]

/-! ### Scalars -/

theorem release?_same {l l' : Layout} (h : l.release? = some l') : l'.cursor = l.cursor ∧ l'.flow = l.flow := by
  rw [release?] at h
  split at h
  · split at h
    · cases h
    · cases h
      exact ⟨rfl, rfl⟩
  · cases h
    exact ⟨rfl, rfl⟩

theorem hold?_same {l l' : Layout} (h : l.hold? = some l') : l'.cursor = l.cursor ∧ l'.flow = l.flow := by
  rw [hold?] at h
  split at h
  · cases h
    exact ⟨rfl, rfl⟩
  · obtain ⟨m, hm, h⟩ := Option.bind_eq_some_iff.1 h
    have hsame := release?_same hm
    cases h
    exact hsame

section Scalars

variable {l l' : Layout} (hhold : l.hold? = some l')

include hhold

theorem readScalar?_quoted {s : List Char} (h : QuotedForm cs s) :
    l.readScalar? '"' (cs ++ '"' :: rest) =
      some (l'.push (.scalar .quoted (String.ofList s)) (l.cursor.behind (cs.length + 2) rest)) := by
  have hcolumn : 0 < (l.cursor.behind 1 (cs ++ '"' :: rest)).column := Nat.add_pos_right _ Nat.one_pos
  have hread : readDouble [] (.blanks []) _ (cs ++ '"' :: rest) = _ := h.reads hcolumn
  have hcount : 1 + (cs.length + 1) = cs.length + 2 := by omega
  rw [Cursor.behind_behind, hcount] at hread
  have hbreak : isBreak '"' = false := rfl
  simp [readScalar?, Cursor.next_eq_behind hbreak, hhold, Gap.none, hread]

theorem readScalar?_plain {crossed : Bool} {q : Cursor} {text : List Char} (h : PlainForm (c :: cs))
    (hflow : l.flow = false) (hread : ∀ floor, (l.indent.isSome → 0 < floor) →
      readPlain false floor [] Gap.none l.cursor (c :: rest) = some (text.reverse, crossed, q)) :
    l.readScalar? c rest = some { l'.push (.scalar .plain (String.ofList text)) q with keyAllowed := crossed } := by
  have hc : c ∉ indicators := h.head c rfl
  obtain ⟨hspace, hbreak, _⟩ := h.chars c List.mem_cons_self
  simp only [indicators, List.mem_cons, not_or] at hc
  have hstart : startsPlain false (c :: rest) = true := by simp [startsPlain, isFlowIndicator, hspace, hbreak, hc]
  obtain ⟨hcursor', hflow'⟩ := hold?_same hhold
  cases hindent : l.indent with
  | none =>
      have hread := hread 0 (by simp [hindent])
      simp [readScalar?, hflow, hc, hhold, hstart, hcursor', hflow', hindent, hread]
  | some n =>
      have hread := hread (n + 1) (by simp)
      simp [readScalar?, hflow, hc, hhold, hstart, hcursor', hflow', hindent, hread]

end Scalars

/-! ### The parts of a line -/

/-- The layout at the start of a line, without or behind a first entry. -/
def atLine (n i : Nat) (rest : List Char) (ts : List Token) (opened : Bool) : Layout :=
  ⟨⟨n, 0, i, rest⟩, ts, none, if opened then some 0 else none, false, true⟩

/-- The layout in front of a colon, with the key held back. -/
def behindKey (n i : Nat) (key rest : List Char) (k : Scalar) (ts : List Token) (opened : Bool) : Layout :=
  ⟨⟨n, key.length, i + key.length, rest⟩, ts, some ⟨⟨n, 0, i, key ++ rest⟩, opened, [k.token]⟩,
    if opened then some 0 else none, false, false⟩

/-- The layout between a colon and a value. -/
def behindColon (p : Cursor) (ts : List Token) : Layout := ⟨p, ts, none, some 0, false, false⟩

/-- The tokens up to the colon behind a key, in reverse order. -/
def keyTokens (k : Scalar) (opened : Bool) : List Token :=
  .value :: k.token :: .key :: if opened then [] else [.blockOpen]

variable {key value : List Char} {k v : Scalar} {opened : Bool} {fuel : Nat}

theorem readAll?_step {l m l' l'' : Layout} (hsettle : l.settle? = some m) (hrest : m.cursor.rest = c :: cs)
    (hread : m.readToken? c cs = some l') (hnext : l'.settle? = l''.settle?) :
    l.readAll? (fuel + 1) = l''.readAll? fuel := by
  rw [readAll?, hsettle]
  simp [hrest, hread, readAll?_congr hnext]

theorem settle?_atLine (h : AtToken rest) : (atLine n i rest ts opened).settle? = some (atLine n i rest ts opened) :=
  settle?_atToken h rfl (by cases opened <;> rfl)

theorem hold?_atLine : (atLine n i (key ++ rest) ts opened).hold? =
    some ⟨⟨n, 0, i, key ++ rest⟩, ts, some ⟨⟨n, 0, i, key ++ rest⟩, opened, []⟩, if opened then some 0 else none,
      false, false⟩ := by
  cases opened <;> rfl

theorem readAll?_key (h : ScalarForm key k) (hmore : atGap more = true) :
    (atLine n i (key ++ ':' :: more) ts opened).readAll? (fuel + 1) =
      (behindKey n i key (':' :: more) k ts opened).readAll? fuel := by
  obtain ⟨c, cs, rfl, hc⟩ := h.head
  refine readAll?_step (settle?_atLine (hc.atToken _)) rfl ?_ rfl
  rw [readToken?_scalar hc rfl]
  cases h with
  | plain h =>
      refine (readScalar?_plain hold?_atLine h rfl fun floor _ => h.reads_key rfl hmore).trans ?_
      simp [push, behindKey, atLine, Cursor.behind, Scalar.token]
  | @quoted cs s h =>
      have hrest : (cs ++ ['"']).append (':' :: more) = cs ++ '"' :: ':' :: more := List.append_cons _ _ _ |>.symm
      rw [hrest, readScalar?_quoted hold?_atLine h]
      simp [push, behindKey, atLine, Cursor.behind, Scalar.token, Nat.add_assoc]

theorem readAll?_colon (hkey : key.length ≤ maxKeyLength) (hmore : AtToken more) :
    (behindKey n i key (':' :: ' ' :: more) k ts opened).readAll? (fuel + 1) =
      (behindColon ⟨n, key.length + 2, i + key.length + 2, more⟩ (keyTokens k opened ++ ts)).readAll? fuel := by
  have hsettle : (behindKey n i key (':' :: ' ' :: more) k ts opened).settle? =
      some (behindKey n i key (':' :: ' ' :: more) k ts opened) := by
    refine settle?_atToken ?_ ?_ (by cases opened <;> rfl)
    · simp [AtToken, behindKey, isSpace, isBreak]
    · simpa [behindKey, Held.isStale] using hkey
  have hread : (behindKey n i key (':' :: ' ' :: more) k ts opened).readToken? ':' (' ' :: more) =
      some (behindColon ⟨n, key.length + 1, i + key.length + 1, ' ' :: more⟩ (keyTokens k opened ++ ts)) := by
    cases opened <;>
      simp [readToken?, behindKey, Cursor.atMarker, List.replicate, readValue?, opening?, indented, atGap, isSpace,
        Cursor.next, isBreak, behindColon, keyTokens]
  refine readAll?_step hsettle rfl hread ?_
  simp [settle?, behindColon, Cursor.skip_blank hmore, Cursor.skip_atToken (p := ⟨_, _, _, _⟩) hmore]

theorem readAll?_value (h : ScalarForm value v) (hmore : AtToken more) {j : Nat} :
    (behindColon ⟨n, j, i, value ++ '\n' :: more⟩ ts).readAll? (fuel + 1) =
      (atLine (n + 1) (i + value.length + 1) more (v.token :: ts) true).readAll? fuel := by
  obtain ⟨c, cs, rfl, hc⟩ := h.head
  have hsettle : (behindColon ⟨n, j, i, c :: cs ++ '\n' :: more⟩ ts).settle? =
      some (behindColon ⟨n, j, i, c :: cs ++ '\n' :: more⟩ ts) := settle?_atToken (hc.atToken _) rfl rfl
  have hhold : (behindColon ⟨n, j, i, c :: cs ++ '\n' :: more⟩ ts).hold? = some _ := rfl
  -- a plain value is read up to the next line, a quoted one only to its mark: then the break is skipped
  cases h with
  | plain h =>
      have hread := readScalar?_plain hhold h rfl fun floor hfloor => h.reads_value rfl hmore (hfloor rfl)
      exact readAll?_step hsettle rfl ((readToken?_scalar hc rfl).trans hread) rfl
  | @quoted cs s h =>
      have hrest : (cs ++ ['"']).append ('\n' :: more) = cs ++ '"' :: '\n' :: more := List.append_cons _ _ _ |>.symm
      have hread : (behindColon _ ts).readScalar? '"' (cs ++ '"' :: '\n' :: more) = _ := readScalar?_quoted hhold h
      rw [← hrest] at hread
      refine readAll?_step hsettle rfl ((readToken?_scalar hc rfl).trans hread) ?_
      rw [settle?_atLine hmore]
      simp [settle?, push, behindColon, atLine, Cursor.behind, Cursor.skip_break hmore, Scalar.token]

end Layout

/-! ## All lines -/

/-- The tokens of an entry. -/
def entryTokens (e : Scalar × Scalar) : List Token := [.key, e.1.token, .value, e.2.token]

/-- The tokens of a mapping. -/
def mappingTokens (entries : List (Scalar × Scalar)) : List Token :=
  .blockOpen :: (entries.flatMap entryTokens ++ [.blockClose])

variable {line : List Char} {lines : List (List Char)} {e : Scalar × Scalar} {entries : List (Scalar × Scalar)}

theorem LineForm.atToken (h : LineForm line e) : AtToken (line ++ more) := by
  obtain ⟨hkey, _, _⟩ := h
  obtain ⟨c, cs, rfl, hc⟩ := hkey.head
  exact hc.atToken _

theorem LineForm.three_le_length (h : LineForm line e) : 3 ≤ line.length := by
  cases h
  simp only [List.length_append, List.length_cons]
  omega

theorem atToken_lines (h : List.Forall₂ LineForm lines entries) : AtToken lines.flatten := by
  cases h with
  | nil => rintro c ⟨⟩
  | cons hline _ => exact hline.atToken

namespace Layout

variable {opened : Bool} {fuel : Nat}

theorem readAll?_line (h : LineForm line e) (hmore : AtToken more) :
    (atLine n i (line ++ more) ts opened).readAll? (fuel + 3) =
      (atLine (n + 1) (i + line.length) more (e.2.token :: (keyTokens e.1 opened ++ ts)) true).readAll? fuel := by
  obtain ⟨hkey, hlength, hvalue⟩ := h
  rename_i key value k v
  have hline : key ++ ':' :: ' ' :: (value ++ ['\n']) ++ more = key ++ ':' :: ' ' :: (value ++ '\n' :: more) := by simp
  have hbehind : AtToken (value ++ '\n' :: more) := by
    obtain ⟨c, cs, rfl, hc⟩ := hvalue.head
    exact hc.atToken _
  have hcount : i + key.length + 2 + value.length + 1 = i + (key ++ ':' :: ' ' :: (value ++ ['\n'])).length := by
    simp only [List.length_append, List.length_cons, List.length_nil]
    omega
  rw [hline, readAll?_key hkey rfl, readAll?_colon hlength hbehind, readAll?_value hvalue hmore, hcount]

theorem readAll?_lines (h : List.Forall₂ LineForm lines entries) (hfuel : lines.flatten.length < fuel) :
    (atLine n i lines.flatten ts true).readAll? fuel =
      some (ts.reverse ++ (entries.flatMap entryTokens ++ [.blockClose])) := by
  induction h generalizing n i ts fuel with
  | nil =>
      obtain ⟨fuel, rfl⟩ := Nat.exists_eq_succ_of_ne_zero (Nat.ne_of_gt hfuel)
      rw [readAll?]
      have hend : AtToken [] := by rintro c ⟨⟩
      rw [List.flatten_nil, settle?_atLine hend]
      simp [atLine, release?, closed]
  | @cons line e lines entries hline hlines ih =>
      rw [List.flatten_cons, List.length_append] at hfuel
      -- a line takes three steps, and has at least as many characters
      have hthree := hline.three_le_length
      obtain ⟨fuel, rfl⟩ := Nat.exists_eq_add_of_le' (show 3 ≤ fuel by omega)
      rw [List.flatten_cons, readAll?_line hline (atToken_lines hlines), ih (by omega)]
      simp [keyTokens, entryTokens]

end Layout

/-- A character that a text may hold, and that is no break other than a line feed or one that stands for itself. -/
def Legible (c : Char) : Prop := isAllowed c = true ∧ c ≠ '\r' ∧ c ≠ '\u0085'

theorem normalBreaks_of_legible (h : ∀ c ∈ cs, Legible c) : normalBreaks cs = cs := by
  induction cs with
  | nil => rfl
  | cons c cs ih =>
      obtain ⟨⟨_, hreturn, hnext⟩, hcs⟩ := List.forall_mem_cons.1 h
      rw [normalBreaks, ih hcs, if_neg (by simp [hreturn, hnext])]
      rintro cs rfl
      exact absurd rfl hreturn

theorem tokens?_lines (h : List.Forall₂ LineForm lines entries) (hlegible : ∀ c ∈ lines.flatten, Legible c) :
    tokens? (String.ofList lines.flatten) = some (if entries = [] then [] else mappingTokens entries) := by
  have hallowed : lines.flatten.all isAllowed = true := List.all_eq_true.2 fun c hc => (hlegible c hc).1
  rw [tokens?, String.toList_ofList, if_pos hallowed, normalBreaks_of_legible hlegible]
  have hstart : Layout.start lines.flatten = Layout.atLine 0 0 lines.flatten [] false := rfl
  simp only [hstart]
  cases h with
  | nil => rfl
  | @cons line e lines entries hline hlines =>
      have hthree := hline.three_le_length
      rw [List.flatten_cons, List.length_append]
      obtain ⟨fuel, hfuel⟩ := Nat.exists_eq_add_of_le' (show 3 ≤ line.length + lines.flatten.length + 1 by omega)
      rw [hfuel, Layout.readAll?_line hline (atToken_lines hlines), Layout.readAll?_lines hlines (by omega)]
      simp [Layout.keyTokens, entryTokens, mappingTokens]

/-! ## Documents -/

theorem ScalarForm.tag_eq_none {s : Scalar} (h : ScalarForm cs s) : s.tag = none := by
  cases h <;> rfl

theorem LineForm.tags (h : LineForm line e) : e.1.tag = none ∧ e.2.tag = none := by
  obtain ⟨hkey, _, hvalue⟩ := h
  exact ⟨hkey.tag_eq_none, hvalue.tag_eq_none⟩

theorem tags_of_lines (h : List.Forall₂ LineForm lines entries) : ∀ e ∈ entries, e.1.tag = none ∧ e.2.tag = none := by
  induction h with
  | nil => simp
  | cons hline _ ih => exact List.forall_mem_cons.2 ⟨hline.tags, ih⟩

/-- The nodes of an entry without properties. -/
def plainNodes (e : Scalar × Scalar) : Node × Node := (.scalar none e.1, .scalar none e.2)

theorem parts_entryTokens (entries : List (Scalar × Scalar)) :
    parts (· == .key) (entries.flatMap entryTokens) =
      [] :: entries.map fun e => [e.1.token, .value, e.2.token] := by
  induction entries with
  | nil => rfl
  | cons e entries ih => simp [entryTokens, parts, ih, Scalar.token]

theorem item?_plain {handles : Handles} (hkey : e.1.tag = none) (hvalue : e.2.tag = none) :
    item? handles [e.1.token, .value, e.2.token] = some (plainNodes e) := by
  obtain ⟨⟨_, _, _⟩, ⟨_, _, _⟩⟩ := e
  cases hkey
  cases hvalue
  simp [item?, Node.ofTokens?, readProperties?, plainNodes, Scalar.token]

theorem blockEntries?_plain {handles : Handles} (h : ∀ e ∈ entries, e.1.tag = none ∧ e.2.tag = none) :
    blockEntries? handles (entries.flatMap entryTokens) = some (entries.map plainNodes) := by
  rw [blockEntries?, parts_entryTokens]
  simp only
  induction entries with
  | nil => rfl
  | cons e entries ih =>
      obtain ⟨⟨hkey, hvalue⟩, h⟩ := List.forall_mem_cons.1 h
      simp [item?_plain hkey hvalue, ih h]

theorem noteAll?_plain (a : Anchors) (entries : List (Scalar × Scalar)) :
    a.noteAll? (entries.map plainNodes) = some (entries.map fun e => (.scalar e.1, .scalar e.2), a) := by
  induction entries with
  | nil => rfl
  | cons e entries ih => simp [Anchors.noteAll?, plainNodes, Anchors.note?, Anchors.addFrom, ih]

theorem mapM_scalar?_plain (a : Anchors) (entries : List (Scalar × Scalar)) :
    (entries.map fun e => (Reference.scalar e.1, Reference.scalar e.2)).mapM
      (fun e => do return (← a.scalar? e.1, ← a.scalar? e.2)) = some entries := by
  induction entries with
  | nil => rfl
  | cons e entries ih =>
      rw [List.map_cons, List.mapM_cons, ih]
      rfl

theorem Document.ofEntries?_plain (entries : List (Scalar × Scalar)) :
    Document.ofEntries? none (entries.map plainNodes) = some (.mapping entries) := by
  rw [Document.ofEntries?, noteAll?_plain]
  exact congrArg (Option.bind · fun scalars => some (Document.mapping scalars)) (mapM_scalar?_plain _ entries)

theorem Document.ofTokens?_mapping (h : ∀ e ∈ entries, e.1.tag = none ∧ e.2.tag = none) :
    Document.ofTokens? (mappingTokens entries) = some (.mapping entries) := by
  have hopen : ∀ t ∈ entries.flatMap entryTokens, (t != .blockClose) = true := by
    intro t ht
    obtain ⟨e, _, ht⟩ := List.mem_flatMap.1 ht
    simp only [entryTokens, Scalar.token, List.mem_cons, List.not_mem_nil, or_false] at ht
    rcases ht with rfl | rfl | rfl | rfl <;> rfl
  have htake : (entries.flatMap entryTokens ++ [Token.blockClose]).takeWhile (· != .blockClose) =
      entries.flatMap entryTokens := by
    rw [List.takeWhile_append_of_pos hopen]
    simp
  have hdrop : (entries.flatMap entryTokens ++ [Token.blockClose]).dropWhile (· != .blockClose) = [.blockClose] := by
    rw [List.dropWhile_append_of_pos hopen]
    simp
  have hcontent (handles : Handles) : readContent? handles (mappingTokens entries) = some (.mapping entries, []) := by
    simp [readContent?, readProperties?, mappingTokens, htake, hdrop, blockEntries?_plain h, ofEntries?_plain]
  have hdirectives : readDirectives? false [] (mappingTokens entries) = some ([], mappingTokens entries) := rfl
  obtain ⟨ts, hts⟩ : ∃ ts, mappingTokens entries = .blockOpen :: ts := ⟨_, rfl⟩
  rw [hts] at hdirectives hcontent ⊢
  simp [ofTokens?, hdirectives, hcontent]

/-- A document with a key and a value on each line is the mapping of the keys to the values. -/
theorem Document.ofText?_lines (h : List.Forall₂ LineForm lines entries) (hlegible : ∀ c ∈ lines.flatten, Legible c) :
    Document.ofText? (String.ofList lines.flatten) =
      some (if entries = [] then .empty else .mapping entries) := by
  rw [Document.ofText?, tokens?_lines h hlegible]
  split
  · rfl
  · exact Document.ofTokens?_mapping (tags_of_lines h)

end MailTemplate.Yaml
