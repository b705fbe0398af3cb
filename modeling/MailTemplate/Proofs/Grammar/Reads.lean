import MailTemplate.Instruction.Parser

/-!
# What a reader of pieces gives

`Reads x a rest` says that a reader succeeds with `a` and leaves `rest`. Readers put together with
`>>=` are taken apart by `reads_bind`, and single pieces by the lemmas on what is taken or expected.
-/

namespace MailTemplate

variable {α β : Type} {P : β × List Piece → Prop} {b : β} {last : Nat} {ps rest : List Piece}

/-- The reader succeeds with `a` and leaves `rest`. -/
def Reads {P : α × List Piece → Prop} (x : Except SyntaxError { r // P r }) (a : α)
    (rest : List Piece) : Prop :=
  ∃ h, x = .ok ⟨(a, rest), h⟩

theorem reads_ok {r : { r // P r }} : Reads (.ok r) b rest ↔ r.1 = (b, rest) := by
  obtain ⟨r, hr⟩ := r
  constructor
  · rintro ⟨h, he⟩
    cases he
    rfl
  · rintro rfl
    exact ⟨hr, rfl⟩

theorem reads_pure {r : { r // P r }} : Reads (pure r) b rest ↔ r.1 = (b, rest) := reads_ok

theorem not_reads_error {e : SyntaxError} : ¬ Reads (P := P) (.error e) b rest := by
  rintro ⟨_, h⟩
  cases h

theorem reads_bind {Q : α × List Piece → Prop} {x : Except SyntaxError { r // Q r }}
    {f : { r // Q r } → Except SyntaxError { r // P r }} :
    Reads (x >>= f) b rest ↔ ∃ a mid h, Reads x a mid ∧ Reads (f ⟨(a, mid), h⟩) b rest := by
  constructor
  · intro h
    cases x with
    | error e => exact absurd h not_reads_error
    | ok r => exact ⟨r.1.1, r.1.2, r.2, ⟨r.2, rfl⟩, h⟩
  · rintro ⟨a, mid, _, ⟨_, rfl⟩, h⟩
    exact h

theorem Reads.bind {Q : α × List Piece → Prop} {x : Except SyntaxError { r // Q r }} {a : α}
    {mid : List Piece} {f : { r // Q r } → Except SyntaxError { r // P r }} (hx : Reads x a mid)
    (hf : ∀ h, Reads (f ⟨(a, mid), h⟩) b rest) : Reads (x >>= f) b rest := by
  obtain ⟨h, rfl⟩ := hx
  exact hf h

/-- What `read` takes off the front of `ps` has the form of what it gives. -/
def Takes {P : α × List Piece → Prop} (form : List Piece → α → Prop) (ps : List Piece)
    (read : Except SyntaxError { r // P r }) : Prop :=
  ∀ a rest, Reads read a rest → ∃ front, ps = front ++ rest ∧ form front a

/-! ## Single pieces -/

/-- The first piece is the token `t`. -/
def StartsWith (t : Token) (ps : List Piece) : Prop := ∃ l rest, ps = .token l t :: rest

theorem takeSymbol?_cons {s : Symbol} {l : Nat} :
    takeSymbol? s (.token l (.symbol s) :: ps) = some ⟨ps, Nat.lt_succ_self _⟩ := by
  simp [takeSymbol?]

theorem takeSymbol?_eq_some {s : Symbol} {mid : List Piece} {hm : mid.length < ps.length}
    (h : takeSymbol? s ps = some ⟨mid, hm⟩) : ∃ l, ps = .token l (.symbol s) :: mid := by
  unfold takeSymbol? at h
  split at h
  · split at h
    · rename_i l t rest ht
      cases h
      exact ⟨l, by rw [ht]⟩
    · cases h
  · cases h

theorem takeSymbol?_eq_none {s : Symbol} :
    takeSymbol? s ps = none ↔ ¬ StartsWith (.symbol s) ps := by
  constructor
  · rintro h ⟨l, rest, rfl⟩
    rw [takeSymbol?_cons] at h
    cases h
  · intro h
    match ht : takeSymbol? s ps with
    | none => rfl
    | some ⟨mid, hm⟩ =>
        obtain ⟨l, he⟩ := takeSymbol?_eq_some ht
        exact absurd ⟨l, mid, he⟩ h

theorem takeKeyword?_cons {k : Keyword} {l : Nat} :
    takeKeyword? k (.token l (.keyword k) :: ps) = some ⟨ps, Nat.lt_succ_self _⟩ := by
  simp [takeKeyword?]

theorem takeKeyword?_eq_some {k : Keyword} {mid : List Piece} {hm : mid.length < ps.length}
    (h : takeKeyword? k ps = some ⟨mid, hm⟩) : ∃ l, ps = .token l (.keyword k) :: mid := by
  unfold takeKeyword? at h
  split at h
  · split at h
    · rename_i l j rest hj
      cases h
      exact ⟨l, by rw [hj]⟩
    · cases h
  · cases h

theorem takeKeyword?_eq_none {k : Keyword} :
    takeKeyword? k ps = none ↔ ¬ StartsWith (.keyword k) ps := by
  constructor
  · rintro h ⟨l, rest, rfl⟩
    rw [takeKeyword?_cons] at h
    cases h
  · intro h
    match ht : takeKeyword? k ps with
    | none => rfl
    | some ⟨mid, hm⟩ =>
        obtain ⟨l, he⟩ := takeKeyword?_eq_some ht
        exact absurd ⟨l, mid, he⟩ h

theorem reads_expectSymbol_bind {s : Symbol} {f : Fewer ps → Except SyntaxError { r // P r }} :
    Reads (expectSymbol last s ps >>= f) b rest ↔
      ∃ l mid h, ps = .token l (.symbol s) :: mid ∧ Reads (f ⟨mid, h⟩) b rest := by
  unfold expectSymbol
  constructor
  · intro h
    split at h
    · rename_i r hr
      obtain ⟨l, he⟩ := takeSymbol?_eq_some hr
      exact ⟨l, r.1, r.2, he, h⟩
    · exact absurd h not_reads_error
  · rintro ⟨l, mid, _, rfl, h⟩
    rw [takeSymbol?_cons]
    exact h

theorem Reads.expectSymbol {s : Symbol} {l : Nat} {mid : List Piece}
    {f : Fewer (.token l (.symbol s) :: mid) → Except SyntaxError { r // P r }}
    (hf : ∀ h, Reads (f ⟨mid, h⟩) b rest) :
    Reads (MailTemplate.expectSymbol last s (.token l (.symbol s) :: mid) >>= f) b rest :=
  reads_expectSymbol_bind.2 ⟨l, mid, Nat.lt_succ_self _, rfl, hf _⟩

theorem reads_expectKeyword_bind {k : Keyword} {f : Fewer ps → Except SyntaxError { r // P r }} :
    Reads (expectKeyword last k ps >>= f) b rest ↔
      ∃ l mid h, ps = .token l (.keyword k) :: mid ∧ Reads (f ⟨mid, h⟩) b rest := by
  unfold expectKeyword
  constructor
  · intro h
    split at h
    · rename_i r hr
      obtain ⟨l, he⟩ := takeKeyword?_eq_some hr
      exact ⟨l, r.1, r.2, he, h⟩
    · exact absurd h not_reads_error
  · rintro ⟨l, mid, _, rfl, h⟩
    rw [takeKeyword?_cons]
    exact h

theorem Reads.expectKeyword {k : Keyword} {l : Nat} {mid : List Piece}
    {f : Fewer (.token l (.keyword k) :: mid) → Except SyntaxError { r // P r }}
    (hf : ∀ h, Reads (f ⟨mid, h⟩) b rest) :
    Reads (MailTemplate.expectKeyword last k (.token l (.keyword k) :: mid) >>= f) b rest :=
  reads_expectKeyword_bind.2 ⟨l, mid, Nat.lt_succ_self _, rfl, hf _⟩

theorem reads_expectIdent {what : Expected} {name : String} :
    Reads (expectIdent last what ps) name rest ↔ ∃ l, ps = .token l (.ident name) :: rest := by
  unfold expectIdent
  split
  · simp [reads_ok]
  · rename_i hps
    constructor
    · exact fun h => absurd h not_reads_error
    · rintro ⟨l, rfl⟩
      exact absurd rfl (hps _ _ _)

end MailTemplate
