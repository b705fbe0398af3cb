import MailTemplate.Json.Reader
import MailTemplate.Proofs.Token.Lexemes

/-!
# The grammar of data files

How data is spelled in a file: relations between texts and the characters, strings and numbers that they stand for.
The readers of these parts accept what is spelled so, and nothing else (`escape?_eq_some_iff`,
`readText_eq_some_iff`, `NumberForm.of_reads`, `NumberForm.reads`).
-/

namespace MailTemplate.Json

/-! ## Escapes -/

/-- What may stand behind a backslash, and the character that it spells. -/
inductive EscapeForm : List Char → Char → Prop
  | mark : EscapeForm ['"'] '"'
  | backslash : EscapeForm ['\\'] '\\'
  | slash : EscapeForm ['/'] '/'
  | backspace : EscapeForm ['b'] '\x08'
  | formFeed : EscapeForm ['f'] '\x0c'
  | lineFeed : EscapeForm ['n'] '\n'
  | carriageReturn : EscapeForm ['r'] '\r'
  | tab : EscapeForm ['t'] '\t'
  | unit {a b c d n} : Number.ofDigitsIn? 16 [a, b, c, d] = some n → n < 0xD800 ∨ 0xE000 ≤ n →
      EscapeForm ['u', a, b, c, d] (Char.ofNat n)
  /-- Two halves of a character beyond four digits. -/
  | pair {a b c d n e f g h m} : Number.ofDigitsIn? 16 [a, b, c, d] = some n → 0xD800 ≤ n → n < 0xDC00 →
      Number.ofDigitsIn? 16 [e, f, g, h] = some m → 0xDC00 ≤ m → m < 0xE000 →
      EscapeForm ['u', a, b, c, d, '\\', 'u', e, f, g, h]
        (Char.ofNat (0x10000 + (n - 0xD800) * 0x400 + (m - 0xDC00)))

variable {cs rest front : List Char} {c : Char} {n : Nat}

theorem fourHex?_eq_some_iff : fourHex? cs = some n ↔
    ∃ a b c d rest, cs = a :: b :: c :: d :: rest ∧ Number.ofDigitsIn? 16 [a, b, c, d] = some n := by
  unfold fourHex?
  split
  · simp
  · rename_i hshort
    constructor
    · rintro ⟨⟩
    · rintro ⟨a, b, c, d, rest, rfl, _⟩
      exact absurd rfl (hshort a b c d rest)

/-- Escapes by digits: one of a character, or two of the halves of one. -/
theorem EscapeForm.of_unicode (h : escape? ('u' :: cs) = some (c, n)) :
    ∃ e rest, 'u' :: cs = e ++ rest ∧ EscapeForm e c ∧ n = e.length := by
  simp only [escape?] at h
  cases hunit : fourHex? cs with
  | none =>
      rw [hunit] at h
      cases h
  | some unit =>
      obtain ⟨w, x, y, z, more, rfl, hdigits⟩ := fourHex?_eq_some_iff.1 hunit
      rw [hunit] at h
      simp only [List.drop_succ_cons, List.drop_zero] at h
      split at h
      · rename_i hplain
        obtain ⟨rfl, rfl⟩ := Prod.mk.inj (Option.some.inj h)
        exact ⟨['u', w, x, y, z], more, rfl, .unit hdigits (by simpa using hplain), rfl⟩
      · rename_i hplain
        split at h
        · rename_i hhigh
          split at h
          · rename_i low
            split at h
            · rename_i half hhalf
              obtain ⟨w', x', y', z', more, rfl, hdigits'⟩ := fourHex?_eq_some_iff.1 hhalf
              split at h
              · rename_i hlow
                rw [Bool.and_eq_true, decide_eq_true_eq, decide_eq_true_eq] at hlow
                obtain ⟨rfl, rfl⟩ := Prod.mk.inj (Option.some.inj h)
                have hfirst : 0xD800 ≤ unit := by simp at hplain; omega
                exact ⟨['u', w, x, y, z, '\\', 'u', w', x', y', z'], more, rfl,
                  .pair hdigits hfirst hhigh hdigits' hlow.1 hlow.2, rfl⟩
              · cases h
            · cases h
          · cases h
        · cases h

theorem escape?_eq_some_iff : escape? cs = some (c, n) ↔
    ∃ e rest, cs = e ++ rest ∧ EscapeForm e c ∧ n = e.length := by
  constructor
  · intro h
    unfold escape? at h
    split at h
    case h_9 cs => exact EscapeForm.of_unicode h
    case h_10 => cases h
    all_goals
      cases h
      exact ⟨[_], _, rfl, by constructor, rfl⟩
  · rintro ⟨e, rest, rfl, h, rfl⟩
    cases h with
    | @unit a b c d n hn hplain =>
        have hunit : fourHex? (a :: b :: c :: d :: rest) = some n := hn
        simp [escape?, hunit, hplain]
    | @pair a b c d n e f g i m hn hhigh hhigh' hm hlow hlow' =>
        have hunit : fourHex? (a :: b :: c :: d :: '\\' :: 'u' :: e :: f :: g :: i :: rest) = some n := hn
        have hhalf : fourHex? (e :: f :: g :: i :: rest) = some m := hm
        have hplain : ¬ (n < 0xD800 ∨ 0xE000 ≤ n) := by omega
        simp [escape?, hunit, hhalf, hplain, hhigh', hlow, hlow']
    | _ => rfl

/-! ## Strings -/

/-- A text with the mark that closes it, and the characters that it spells. -/
inductive TextForm : List Char → List Char → Prop
  | done : TextForm ['"'] []
  | plain {c cs s} : c ≠ '"' → c ≠ '\\' → 0x20 ≤ c.toNat → TextForm cs s → TextForm (c :: cs) (c :: s)
  | escape {e c cs s} : EscapeForm e c → TextForm cs s → TextForm ('\\' :: (e ++ cs)) (c :: s)

theorem readText_eq_some_iff {s : List Char} : readText cs = some (s, rest) ↔
    ∃ front, cs = front ++ rest ∧ TextForm front s := by
  constructor
  · intro h
    fun_induction readText cs generalizing s with
    | case1 => cases h
    | case2 =>
        cases h
        exact ⟨['"'], rfl, .done⟩
    | case3 => cases h
    | case4 cs c n hescape ih =>
        obtain ⟨⟨s, rest⟩, hmore, h⟩ := Option.map_eq_some_iff.1 h
        cases h
        obtain ⟨front, hfront, hform⟩ := ih hmore
        obtain ⟨e, back, rfl, he, rfl⟩ := escape?_eq_some_iff.1 hescape
        rw [List.drop_left] at hfront
        subst hfront
        exact ⟨'\\' :: (e ++ front), by simp, .escape he hform⟩
    | case5 => cases h
    | case6 c cs hmark hback hcontrol ih =>
        obtain ⟨⟨s, rest⟩, hmore, h⟩ := Option.map_eq_some_iff.1 h
        cases h
        obtain ⟨front, rfl, hform⟩ := ih hmore
        exact ⟨c :: front, rfl, .plain hmark hback (not_lt.1 hcontrol) hform⟩
  · rintro ⟨front, rfl, h⟩
    induction h with
    | done => rw [List.singleton_append, readText]
    | plain hmark hback hcontrol _ ih =>
        rw [List.cons_append, readText.eq_4 _ _ hmark hback, if_neg (not_lt.2 hcontrol), ih]
        rfl
    | @escape e c cs s he _ ih =>
        have hescape : escape? (e ++ (cs ++ rest)) = some (c, e.length) := escape?_eq_some_iff.2 ⟨e, _, rfl, he, rfl⟩
        rw [List.cons_append, List.append_assoc, readText, hescape]
        simp only [List.drop_left, ih]
        rfl

/-! ## Numbers -/

/-- Decimal digits, at least one. -/
def Digits (ds : List Char) : Prop := ds ≠ [] ∧ ∀ d ∈ ds, d.isDigit = true

/-- The whole part of a number has no zeros in front. -/
def WholeForm (ds : List Char) : Prop := Digits ds ∧ ∀ d more, ds ≠ '0' :: d :: more

/-- The fraction of a number, if it has one, and its digits. -/
inductive FractionForm : List Char → List Char → Prop
  | none : FractionForm [] []
  | digits {ds} : Digits ds → FractionForm ('.' :: ds) ds

/-- The exponent of a number, if it has one, and what it comes to. -/
inductive ExponentForm : List Char → Int → Prop
  | none : ExponentForm [] 0
  | plain {e ds} : e = 'e' ∨ e = 'E' → Digits ds → ExponentForm (e :: ds) (Number.ofDigits ds)
  | plus {e ds} : e = 'e' ∨ e = 'E' → Digits ds → ExponentForm (e :: '+' :: ds) (Number.ofDigits ds)
  | minus {e ds} : e = 'e' ∨ e = 'E' → Digits ds → ExponentForm (e :: '-' :: ds) (-Number.ofDigits ds)

/-- A number without a sign, if it is finite. -/
inductive UnsignedForm : List Char → Float → Prop
  | mk {whole front fraction back exponent x} : WholeForm whole → FractionForm front fraction →
      ExponentForm back exponent → (Number.Decimal.ofLeading whole fraction exponent).read? = some x →
      UnsignedForm (whole ++ (front ++ back)) x

inductive NumberForm : List Char → Float → Prop
  | positive {cs x} : UnsignedForm cs x → NumberForm cs x
  | negative {cs x} : UnsignedForm cs x → NumberForm ('-' :: cs) (-x)

/-- No digit comes next. -/
def EndsDigits (rest : List Char) : Prop := ∀ c ∈ rest.head?, c.isDigit = false

/-- Nothing comes next that could belong to a number. -/
def EndsNumber (rest : List Char) : Prop :=
  ∀ c ∈ rest.head?, c.isDigit = false ∧ c ≠ '.' ∧ c ≠ 'e' ∧ c ≠ 'E'

section Numbers

variable {ds : List Char}

theorem digits?_eq_some_iff : digits? cs = some (ds, rest) ↔ cs = ds ++ rest ∧ Digits ds ∧ EndsDigits rest := by
  unfold digits?
  constructor
  · intro h
    simp only at h
    split at h
    · cases h
    · rename_i hne
      cases h
      refine ⟨List.takeWhile_append_dropWhile.symm, ⟨by simpa using hne, fun d hd => ?_⟩, fun c hc => ?_⟩
      · exact List.mem_takeWhile_imp hd
      · exact not_head_of_dropWhile hc
  · rintro ⟨rfl, ⟨hne, hds⟩, hrest⟩
    simp [takeWhile_exact hds hrest, dropWhile_exact hds hrest, hne]

theorem readWhole?_eq_some_iff :
    readWhole? cs = some (ds, rest) ↔ cs = ds ++ rest ∧ WholeForm ds ∧ EndsDigits rest := by
  unfold readWhole?
  constructor
  · intro h
    split at h
    · cases h
    · rename_i hzero
      obtain ⟨hcs, hds, hrest⟩ := digits?_eq_some_iff.1 h
      refine ⟨hcs, ⟨hds, ?_⟩, hrest⟩
      rintro d more rfl
      exact hzero d more rest h
  · rintro ⟨hcs, ⟨hds, hzero⟩, hrest⟩
    rw [digits?_eq_some_iff.2 ⟨hcs, hds, hrest⟩]
    split
    · rename_i h
      cases h
      exact absurd rfl (hzero _ _)
    · rfl

theorem FractionForm.of_reads (h : readFraction? cs = some (ds, rest)) :
    ∃ front, cs = front ++ rest ∧ FractionForm front ds := by
  unfold readFraction? at h
  split at h
  · obtain ⟨rfl, hds, _⟩ := digits?_eq_some_iff.1 h
    exact ⟨'.' :: ds, rfl, .digits hds⟩
  · cases h
    exact ⟨[], rfl, .none⟩

theorem FractionForm.reads (h : FractionForm front ds) (hrest : ∀ c ∈ rest.head?, c.isDigit = false ∧ c ≠ '.') :
    readFraction? (front ++ rest) = some (ds, rest) := by
  cases h with
  | none =>
      rw [List.nil_append]
      unfold readFraction?
      split
      · exact absurd rfl (hrest '.' rfl).2
      · rfl
  | digits hds => exact digits?_eq_some_iff.2 ⟨rfl, hds, fun c hc => (hrest c hc).1⟩

theorem FractionForm.ends (h : FractionForm front ds) (hrest : EndsDigits rest) : EndsDigits (front ++ rest) := by
  cases h with
  | none => exact hrest
  | digits =>
      rintro c ⟨⟩
      rfl

theorem ExponentForm.ends {n : Int} (h : ExponentForm front n) (hrest : EndsNumber rest) :
    ∀ c ∈ (front ++ rest).head?, c.isDigit = false ∧ c ≠ '.' := by
  cases h with
  | none => exact fun c hc => ⟨(hrest c hc).1, (hrest c hc).2.1⟩
  | plain he | plus he | minus he =>
      rintro c ⟨⟩
      rcases he with rfl | rfl <;> decide

theorem ExponentForm.of_reads {n : Int} (h : readExponent? cs = some (n, rest)) :
    ∃ front, cs = front ++ rest ∧ ExponentForm front n := by
  unfold readExponent? at h
  split at h
  · rename_i e cs
    split at h
    · rename_i he
      simp only [Bool.or_eq_true, decide_eq_true_eq] at he
      split at h
      rename_i negative after hsign
      obtain ⟨⟨ds, rest'⟩, hdigits, hvalue⟩ := Option.map_eq_some_iff.1 h
      obtain ⟨rfl, hds, _⟩ := digits?_eq_some_iff.1 hdigits
      split at hsign <;> cases hsign <;> cases hvalue
      · exact ⟨e :: '-' :: ds, rfl, .minus he hds⟩
      · exact ⟨e :: '+' :: ds, rfl, .plus he hds⟩
      · exact ⟨e :: ds, rfl, .plain he hds⟩
    · cases h
      exact ⟨[], rfl, .none⟩
  · cases h
    exact ⟨[], rfl, .none⟩

theorem Digits.no_sign {ds : List Char} (h : Digits ds) : ∀ d ∈ ds.head?, d ≠ '-' ∧ d ≠ '+' := by
  intro d hd
  have hdigit := h.2 d (List.mem_of_mem_head? hd)
  constructor <;> rintro rfl <;> revert hdigit <;> decide

theorem ExponentForm.reads {n : Int} (h : ExponentForm front n)
    (hrest : ∀ c ∈ rest.head?, c.isDigit = false ∧ c ≠ 'e' ∧ c ≠ 'E') :
    readExponent? (front ++ rest) = some (n, rest) := by
  have hends : EndsDigits rest := fun c hc => (hrest c hc).1
  cases h with
  | none =>
      cases rest with
      | nil => rfl
      | cons c rest =>
          obtain ⟨_, he, hE⟩ := hrest c rfl
          simp [readExponent?, he, hE]
  | @plain e ds he hds =>
      obtain ⟨d, more, rfl⟩ := List.exists_cons_of_ne_nil hds.1
      obtain ⟨hminus, hplus⟩ := hds.no_sign d rfl
      have hdigits : digits? (d :: (more ++ rest)) = some (d :: more, rest) :=
        digits?_eq_some_iff.2 ⟨rfl, hds, hends⟩
      have he' : (decide (e = 'e') || decide (e = 'E')) = true := by simpa using he
      simp only [List.cons_append, readExponent?, if_pos he']
      split
      · rename_i heq
        exact absurd (List.cons.inj heq).1 hminus
      · rename_i heq
        exact absurd (List.cons.inj heq).1 hplus
      · simp [hdigits]
  | plus he hds =>
      simp [readExponent?, he, digits?_eq_some_iff.2 ⟨rfl, hds, hends⟩]
  | minus he hds =>
      simp [readExponent?, he, digits?_eq_some_iff.2 ⟨rfl, hds, hends⟩]

/-- Reads a number behind its sign. -/
def unsigned? (cs : List Char) : Option (Float × List Char) := do
  let (whole, cs) ← readWhole? cs
  let (fraction, cs) ← readFraction? cs
  let (exponent, cs) ← readExponent? cs
  let x ← (Number.Decimal.ofLeading whole fraction exponent).read?
  return (x, cs)

theorem readNumber?_minus : readNumber? ('-' :: cs) = (unsigned? cs).map fun r => (.number (-r.1), r.2) := by
  simp [readNumber?, unsigned?, Option.map_bind]

theorem readNumber?_plain (h : ∀ c ∈ cs.head?, c ≠ '-') :
    readNumber? cs = (unsigned? cs).map fun r => (.number r.1, r.2) := by
  cases cs with
  | nil => rfl
  | cons c cs =>
      have hc : c ≠ '-' := h c rfl
      simp [readNumber?, unsigned?, Option.map_bind, hc]

variable {x : Float}

theorem UnsignedForm.of_reads (h : unsigned? cs = some (x, rest)) :
    ∃ front, cs = front ++ rest ∧ UnsignedForm front x := by
  obtain ⟨⟨whole, cs₁⟩, hwhole, h⟩ := Option.bind_eq_some_iff.1 h
  obtain ⟨⟨fraction, cs₂⟩, hfraction, h⟩ := Option.bind_eq_some_iff.1 h
  obtain ⟨⟨exponent, cs₃⟩, hexponent, h⟩ := Option.bind_eq_some_iff.1 h
  obtain ⟨y, hy, h⟩ := Option.bind_eq_some_iff.1 h
  cases h
  obtain ⟨rfl, hform, _⟩ := readWhole?_eq_some_iff.1 hwhole
  obtain ⟨front, rfl, hfront⟩ := FractionForm.of_reads hfraction
  obtain ⟨back, rfl, hback⟩ := ExponentForm.of_reads hexponent
  exact ⟨whole ++ (front ++ back), by simp, .mk hform hfront hback hy⟩

theorem UnsignedForm.reads (h : UnsignedForm front x) (hrest : EndsNumber rest) :
    unsigned? (front ++ rest) = some (x, rest) := by
  obtain @⟨whole, front, fraction, back, exponent, _, hwhole, hfraction, hexponent, hx⟩ := h
  have hback := hexponent.ends hrest
  have hfront := hfraction.ends fun c hc => (hback c hc).1
  have hexact := hexponent.reads fun c hc => ⟨(hrest c hc).1, (hrest c hc).2.2⟩
  rw [List.append_assoc, List.append_assoc]
  simp only [unsigned?, readWhole?_eq_some_iff.2 ⟨rfl, hwhole, hfront⟩, hfraction.reads hback, hexact, hx,
    Option.bind_eq_bind, Option.bind_some]
  rfl

theorem NumberForm.of_reads {j : Json} (h : readNumber? cs = some (j, rest)) :
    ∃ front x, cs = front ++ rest ∧ j = .number x ∧ NumberForm front x := by
  by_cases hminus : ∃ more, cs = '-' :: more
  · obtain ⟨cs, rfl⟩ := hminus
    rw [readNumber?_minus] at h
    obtain ⟨⟨x, rest⟩, hx, h⟩ := Option.map_eq_some_iff.1 h
    cases h
    obtain ⟨front, rfl, hfront⟩ := UnsignedForm.of_reads hx
    exact ⟨'-' :: front, -x, rfl, rfl, .negative hfront⟩
  · rw [readNumber?_plain fun c hc he => hminus ⟨cs.tail, he ▸ List.eq_cons_of_mem_head? hc⟩] at h
    obtain ⟨⟨x, rest⟩, hx, h⟩ := Option.map_eq_some_iff.1 h
    cases h
    obtain ⟨front, rfl, hfront⟩ := UnsignedForm.of_reads hx
    exact ⟨front, x, rfl, rfl, .positive hfront⟩

theorem UnsignedForm.head (h : UnsignedForm front x) : ∃ d more, front = d :: more ∧ d.isDigit = true := by
  obtain ⟨⟨hdigits, _⟩, _⟩ := h
  obtain ⟨d, more, rfl⟩ := List.exists_cons_of_ne_nil hdigits.1
  exact ⟨d, _, rfl, hdigits.2 d List.mem_cons_self⟩

theorem NumberForm.reads (h : NumberForm front x) (hrest : EndsNumber rest) :
    readNumber? (front ++ rest) = some (.number x, rest) := by
  cases h with
  | positive h =>
      obtain ⟨d, more, rfl, hd⟩ := h.head
      have hminus : d ≠ '-' := by
        rintro rfl
        revert hd
        decide
      rw [readNumber?_plain (by simpa using hminus), h.reads hrest]
      rfl
  | negative h =>
      rw [List.cons_append, readNumber?_minus, h.reads hrest]
      rfl

end Numbers

end MailTemplate.Json
