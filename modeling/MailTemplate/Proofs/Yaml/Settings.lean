import MailTemplate.Config
import MailTemplate.Proofs.Yaml.Lines

/-!
# Settings as lines

A file of settings with a key and a value on each line is refused if a key is repeated, and else sets one after the
other (`RenderConfig.ofYaml?_lines`). All settings can be written so (`RenderConfig.ofYaml?_toYaml`).
-/

namespace MailTemplate

/-! ## Digits -/

namespace Number

/-- The last `width` hexadecimal digits of a number. -/
def hexDigits : Nat → Nat → List Char
  | 0, _ => []
  | width + 1, n => hexDigits width (n / 16) ++ [Nat.digitChar (n % 16)]

variable {base n d : Nat} {c : Char} {cs : List Char}

theorem digitIn?_digitChar (hd : d < base) (hbase : base ≤ 16) : digitIn? base (Nat.digitChar d) = some d := by
  have hd16 : d < 16 := Nat.lt_of_lt_of_le hd hbase
  have hvalue : digitIn? base (Nat.digitChar d) = (some d).filter (· < base) := by
    clear hd hbase
    interval_cases d <;> rfl
  simp [hvalue, hd]

theorem ofDigitsIn?_singleton (hd : d < base) (hbase : base ≤ 16) : ofDigitsIn? base [Nat.digitChar d] = some d := by
  simp [ofDigitsIn?, digitIn?_digitChar hd hbase]

theorem ofDigitsIn?_append (hcs : ofDigitsIn? base cs = some n) (hd : d < base) (hbase : base ≤ 16) :
    ofDigitsIn? base (cs ++ [Nat.digitChar d]) = some (base * n + d) := by
  rw [ofDigitsIn?] at hcs
  split at hcs
  · cases hcs
  · simp [ofDigitsIn?, hcs, digitIn?_digitChar hd hbase]

theorem ofDigitsIn?_hexDigits (width n : Nat) :
    ofDigitsIn? 16 (hexDigits (width + 1) n) = some (n % 16 ^ (width + 1)) := by
  have hdigit (n : Nat) : n % 16 < 16 := Nat.mod_lt _ (by decide)
  induction width generalizing n with
  | zero => simpa [hexDigits] using ofDigitsIn?_singleton (hdigit n) (le_refl 16)
  | succ width ih =>
      rw [hexDigits, ofDigitsIn?_append (ih (n / 16)) (hdigit n) (le_refl 16), pow_succ' 16 (width + 1), Nat.mod_mul,
        Nat.add_comm]

theorem length_hexDigits (width n : Nat) : (hexDigits width n).length = width := by
  induction width generalizing n with
  | zero => rfl
  | succ width ih => simp [hexDigits, ih]

theorem ofDigitsIn?_toDigits (n : Nat) : ofDigitsIn? 10 (Nat.toDigits 10 n) = some n := by
  induction n using Nat.strongRecOn with
  | ind n ih =>
      rw [Nat.toDigits_eq_if (by decide)]
      split
      · next hn => exact ofDigitsIn?_singleton hn (by decide)
      · have hn : n / 10 < n := by omega
        rw [ofDigitsIn?_append (ih _ hn) (Nat.mod_lt _ (by decide)) (by decide), Nat.div_add_mod]

theorem toDigits_eq_cons (hn : 0 < n) : ∃ c cs, Nat.toDigits 10 n = c :: cs ∧ c ≠ '0' := by
  induction n using Nat.strongRecOn with
  | ind n ih =>
      rw [Nat.toDigits_eq_if (by decide)]
      split
      · refine ⟨_, _, rfl, ?_⟩
        interval_cases n <;> decide
      · have hlt : n / 10 < n := by omega
        obtain ⟨c, cs, heq, hc⟩ := ih (n / 10) hlt (by omega)
        exact ⟨c, cs ++ [Nat.digitChar (n % 10)], by rw [heq, List.cons_append], hc⟩

end Number

namespace Yaml

/-! ## Bare texts -/

/-- A character of ASCII with a shape, or a space. -/
def isPrintable (c : Char) : Bool := 0x20 ≤ c.toNat && c.toNat ≤ 0x7E

def isBareChar (c : Char) : Bool := c.isAlphanum || c == '_'

variable {c : Char} {cs : List Char}

theorem legible_of_isPrintable (h : isPrintable c = true) : Legible c := by
  simp only [isPrintable, Bool.and_eq_true, decide_eq_true_eq] at h
  refine ⟨?_, ?_, ?_⟩
  · simp [isAllowed, h]
  · rintro rfl
    exact absurd h (by decide)
  · rintro rfl
    exact absurd h (by decide)

theorem isBreak_of_isPrintable (h : isPrintable c = true) : isBreak c = false := by
  simp only [isPrintable, Bool.and_eq_true, decide_eq_true_eq] at h
  simp only [isBreak, Bool.or_eq_false_iff, beq_eq_false_iff_ne]
  refine ⟨⟨?_, ?_⟩, ?_⟩ <;> rintro rfl <;> exact absurd h (by decide)

theorem isPrintable_of_isBareChar (h : isBareChar c = true) : isPrintable c = true := by
  simp only [isBareChar, Char.isAlphanum, Char.isAlpha, Char.isUpper, Char.isLower, Char.isDigit, Bool.or_eq_true,
    Bool.and_eq_true, decide_eq_true_eq, beq_iff_eq, ge_iff_le, UInt32.le_iff_toNat_le] at h
  simp only [Char.toNat_val, Char.reduceToNat] at h
  simp only [isPrintable, Bool.and_eq_true, decide_eq_true_eq]
  rcases h with ((h | h) | h) | rfl
  · omega
  · omega
  · omega
  · decide

/-- A text of letters, digits and low lines. -/
def IsBare (s : String) : Prop := s.toList ≠ [] ∧ s.toList.all isBareChar = true

theorem IsBare.chars {s : String} (h : IsBare s) : ∀ c ∈ s.toList, isBareChar c = true := List.all_eq_true.1 h.2

theorem IsBare.isPrintable {s : String} (h : IsBare s) : ∀ c ∈ s.toList, isPrintable c = true :=
  fun c hc => isPrintable_of_isBareChar (h.chars c hc)

theorem ScalarForm.of_isBare {s : String} (h : IsBare s) : ScalarForm s.toList ⟨.plain, none, s⟩ := by
  have hplain : PlainForm s.toList := by
    refine ⟨h.1, fun c hc hmem => ?_, fun c hc => ?_⟩
    · have hnone : indicators.all (!isBareChar ·) = true := rfl
      have hbare := h.chars c (List.mem_of_mem_head? hc)
      simpa [hbare] using List.all_eq_true.1 hnone c hmem
    · have hbare := h.chars c hc
      refine ⟨?_, isBreak_of_isPrintable (isPrintable_of_isBareChar hbare), ?_⟩
      · simp only [isSpace, Bool.or_eq_false_iff, beq_eq_false_iff_ne]
        refine ⟨?_, ?_⟩ <;> rintro rfl <;> cases hbare
      · rintro rfl
        cases hbare
  simpa using ScalarForm.plain hplain

/-! ## Writing -/

/-- A character between quotation marks: as it is, or by its number. -/
def writeChar (c : Char) : List Char :=
  if isPrintable c && c != '"' && c != '\\' then [c] else '\\' :: 'U' :: Number.hexDigits 8 c.toNat

def writeQuoted (s : String) : List Char := '"' :: (s.toList.flatMap writeChar ++ ['"'])

def writeLine (key value : List Char) : List Char := key ++ ':' :: ' ' :: (value ++ ['\n'])

theorem escapeForm_hexDigits (c : Char) : EscapeForm ('U' :: Number.hexDigits 8 c.toNat) c := by
  have hvalid : c.toNat < 0xD800 ∨ 0xDFFF < c.toNat ∧ c.toNat < 0x110000 := c.valid
  have hlength : ('U', (Number.hexDigits 8 c.toNat).length) ∈ digitEscapes := by
    simp [digitEscapes, Number.length_hexDigits]
  have hvalue : Number.ofDigitsIn? 16 (Number.hexDigits 8 c.toNat) = some c.toNat := by
    rw [Number.ofDigitsIn?_hexDigits, Nat.mod_eq_of_lt (by omega)]
  simpa using EscapeForm.digits hlength hvalue (by omega) (by omega)

theorem quotedForm_flatMap (cs : List Char) : QuotedForm (cs.flatMap writeChar) cs := by
  induction cs with
  | nil => exact .nil
  | cons c cs ih =>
      rw [List.flatMap_cons, writeChar]
      split
      · next hc =>
          simp only [Bool.and_eq_true, bne_iff_ne, ne_eq] at hc
          obtain ⟨⟨hprint, hmark⟩, hback⟩ := hc
          exact .plain hmark hback (isBreak_of_isPrintable hprint) ih
      · exact .escape (escapeForm_hexDigits c) ih

theorem scalarForm_writeQuoted (s : String) : ScalarForm (writeQuoted s) ⟨.quoted, none, s⟩ := by
  simpa [writeQuoted] using ScalarForm.quoted (quotedForm_flatMap s.toList)

theorem isPrintable_hexDigits (width n : Nat) : ∀ c ∈ Number.hexDigits width n, isPrintable c = true := by
  have hdigit : ∀ d < 16, isPrintable (Nat.digitChar d) = true := by decide
  induction width generalizing n with
  | zero => simp [Number.hexDigits]
  | succ width ih =>
      rw [Number.hexDigits, List.forall_mem_append]
      exact ⟨ih _, by simpa using hdigit _ (Nat.mod_lt n (by decide))⟩

theorem isPrintable_writeChar (c : Char) : ∀ d ∈ writeChar c, isPrintable d = true := by
  rw [writeChar]
  split
  · next hc =>
      rw [Bool.and_assoc, Bool.and_eq_true] at hc
      simpa using hc.1
  · exact List.forall_mem_cons.2 ⟨rfl, List.forall_mem_cons.2 ⟨rfl, isPrintable_hexDigits 8 _⟩⟩

theorem isPrintable_writeQuoted (s : String) : ∀ c ∈ writeQuoted s, isPrintable c = true := by
  rw [writeQuoted, List.forall_mem_cons, List.forall_mem_append]
  refine ⟨rfl, fun d hd => ?_, by simp; decide⟩
  obtain ⟨c, _, hd⟩ := List.mem_flatMap.1 hd
  exact isPrintable_writeChar c d hd

theorem legible_writeLine {key value : List Char} (hkey : ∀ c ∈ key, isPrintable c = true)
    (hvalue : ∀ c ∈ value, isPrintable c = true) : ∀ c ∈ writeLine key value, Legible c := by
  have hbreak : Legible '\n' := ⟨rfl, by decide, by decide⟩
  simp only [writeLine, List.forall_mem_append, List.forall_mem_cons]
  exact ⟨fun c hc => legible_of_isPrintable (hkey c hc), legible_of_isPrintable rfl, legible_of_isPrintable rfl,
    fun c hc => legible_of_isPrintable (hvalue c hc), hbreak, by simp⟩

end Yaml

namespace RenderConfig

open Yaml

/-- A file with a key and a value on each line sets one after the other; no key may be repeated. -/
theorem ofYaml?_lines {lines : List (List Char)} {entries : List (Scalar × Scalar)}
    (h : List.Forall₂ LineForm lines entries) (hlegible : ∀ c ∈ lines.flatten, Legible c) :
    ofYaml? (String.ofList lines.flatten) =
      if (entries.map (·.1.text)).Nodup then entries.foldlM (fun c e => c.set? e.1 e.2) default else none := by
  rw [ofYaml?, Document.ofText?_lines h hlegible]
  cases entries <;> rfl

/-! ## Writing settings -/

/-- A number without zeros in front is read in decimal. -/
theorem naturalOf?_toDigits {n : Nat} (hn : n < UInt64.size) :
    naturalOf? (String.ofList (Nat.toDigits 10 n)) = some n := by
  have hread := Number.ofDigitsIn?_toDigits n
  rcases Nat.eq_zero_or_pos n with rfl | hpos
  · rfl
  · obtain ⟨c, cs, heq, hc⟩ := Number.toDigits_eq_cons hpos
    have hplus : c ≠ '+' := by
      have hdigit : c.isDigit := Nat.isDigit_of_mem_toDigits (by decide) (by decide) (heq ▸ List.mem_cons_self)
      rintro rfl
      cases hdigit
    rw [heq] at hread ⊢
    simp [naturalOf?, String.toList_ofList, hc, hplus, hread, hn]

theorem toLimit?_of_naturalOf? {s : String} {n : Nat} (h : naturalOf? s = some n) :
    toLimit? ⟨.plain, none, s⟩ = some (some n) := by
  have hempty : s.isEmpty = false := by
    rw [Bool.eq_false_iff, ne_eq, String.isEmpty_iff]
    rintro rfl
    cases h
  have hnull : isNullText s = false := by
    simp only [isNullText, Bool.or_eq_false_iff, beq_eq_false_iff_ne]
    refine ⟨⟨⟨?_, ?_⟩, ?_⟩, ?_⟩ <;> rintro rfl <;> cases h
  simp [toLimit?, isUntyped, hempty, hnull, h]

def strictText (b : Bool) : String := if b then "true" else "false"

def limitText : Option Nat → String
  | some n => String.ofList (Nat.toDigits 10 n)
  | none => "null"

theorem toBool?_strictText (b : Bool) : toBool? ⟨.plain, none, strictText b⟩ = some b := by
  cases b <;> rfl

theorem toLimit?_limitText {limit : Option Nat} (h : ∀ n ∈ limit, n < UInt64.size) :
    toLimit? ⟨.plain, none, limitText limit⟩ = some limit := by
  cases limit with
  | none => rfl
  | some n => exact toLimit?_of_naturalOf? (naturalOf?_toDigits (h n rfl))

/-- The lines of the settings. -/
def toLines (c : RenderConfig) : List (List Char) :=
  [writeLine "strict".toList (strictText c.strict).toList,
    writeLine "max_iterations".toList (limitText c.maxIterations).toList,
    writeLine "placeholder".toList (writeQuoted c.placeholder)]

/-- The scalars on these lines. -/
def toEntries (c : RenderConfig) : List (Scalar × Scalar) :=
  [(⟨.plain, none, "strict"⟩, ⟨.plain, none, strictText c.strict⟩),
    (⟨.plain, none, "max_iterations"⟩, ⟨.plain, none, limitText c.maxIterations⟩),
    (⟨.plain, none, "placeholder"⟩, ⟨.quoted, none, c.placeholder⟩)]

/-- A file with all settings. -/
def toYaml (c : RenderConfig) : String := String.ofList c.toLines.flatten

theorem isBare_strictText (b : Bool) : IsBare (strictText b) := by
  cases b <;> exact ⟨by simp [strictText], rfl⟩

theorem isBare_limitText (limit : Option Nat) : IsBare (limitText limit) := by
  cases limit with
  | none => exact ⟨by simp [limitText], rfl⟩
  | some n =>
      refine ⟨by simp [limitText, Nat.toDigits_ne_nil], List.all_eq_true.2 fun c hc => ?_⟩
      rw [limitText, String.toList_ofList] at hc
      have hdigit : c.isDigit := Nat.isDigit_of_mem_toDigits (by decide) (by decide) hc
      simp [isBareChar, Char.isAlphanum, hdigit]

theorem isBare_keys : IsBare "strict" ∧ IsBare "max_iterations" ∧ IsBare "placeholder" :=
  ⟨⟨by decide, rfl⟩, ⟨by decide, rfl⟩, ⟨by decide, rfl⟩⟩

theorem toLines_forms (c : RenderConfig) : List.Forall₂ LineForm c.toLines c.toEntries := by
  obtain ⟨hstrict, hlimit, hplaceholder⟩ := isBare_keys
  refine .cons (.mk (.of_isBare hstrict) (by decide) (.of_isBare (isBare_strictText _))) ?_
  refine .cons (.mk (.of_isBare hlimit) (by decide) (.of_isBare (isBare_limitText _))) ?_
  exact .cons (.mk (.of_isBare hplaceholder) (by decide) (scalarForm_writeQuoted _)) .nil

theorem toLines_legible (c : RenderConfig) : ∀ d ∈ c.toLines.flatten, Legible d := by
  obtain ⟨hstrict, hlimit, hplaceholder⟩ := isBare_keys
  simp only [toLines, List.flatten_cons, List.flatten_nil, List.forall_mem_append]
  exact ⟨legible_writeLine hstrict.isPrintable (isBare_strictText _).isPrintable,
    legible_writeLine hlimit.isPrintable (isBare_limitText _).isPrintable,
    legible_writeLine hplaceholder.isPrintable (isPrintable_writeQuoted _), by simp⟩

/-- What has been written is read back. -/
theorem ofYaml?_toYaml {c : RenderConfig} (h : ∀ n ∈ c.maxIterations, n < UInt64.size) : ofYaml? c.toYaml = some c := by
  rw [toYaml, ofYaml?_lines c.toLines_forms c.toLines_legible, if_pos (by simp [toEntries])]
  simp [toEntries, set?, toBool?_strictText, toLimit?_limitText h]

example : toYaml ⟨true, some 500, "<style>"⟩ =
    "strict: true\nmax_iterations: 500\nplaceholder: \"<style>\"\n" := by rfl

end RenderConfig

end MailTemplate
