import MailTemplate.Proofs.Compile.Relocation
import MailTemplate.Proofs.Grammar.TextPlaces
import MailTemplate.Proofs.Template.OpenBlocks

/-!
# A line more

Lines keep their form when they are numbered anew (`LinesForm.renumber`) and when a line that holds
no pieces comes in between (`LinesForm.insert`). No text line of a block has a form behind a
statement of the block that is left open (`LinesForm.not_unfinished`).
-/

namespace MailTemplate

/-! ## Other numbers -/

variable {f : Nat → Nat} {n n' : Nat}

theorem Line.block_renumber (l : Line) : (l.renumber f).block = l.block := by
  cases l <;> rfl

theorem LinesForm.renumber {ls : List Line} {is : List Instruction}
    (hlast : ∀ l ∈ ls, (f l.number == n') = (l.number == n)) (h : LinesForm n ls is) :
    LinesForm n' (ls.map (Line.renumber f)) (renumberAll f is) := by
  rw [← compileAll_eq_ok_iff] at h ⊢
  rw [← Line.relocate_zero, Line.compileAll_relocate fun l hl => Line.isLast_relocate (hlast l hl), h]
  rfl

/-! ## A line without pieces -/

/-- Where a list cut in two ways is cut first: not behind `cs`, or behind it. -/
theorem append_eq_append_cases {α : Type} {as bs cs ds : List α} (h : as ++ bs = cs ++ ds) :
    (∃ cs', cs = as ++ cs' ∧ bs = cs' ++ ds) ∨ ∃ a as', as = cs ++ a :: as' ∧ ds = a :: as' ++ bs := by
  rcases List.append_eq_append_iff.1 h with ⟨cs', rfl, rfl⟩ | ⟨as', rfl, rfl⟩
  · exact .inl ⟨cs', rfl, rfl⟩
  · cases as' with
    | nil => exact .inl ⟨[], by simp, rfl⟩
    | cons a as' => exact .inr ⟨a, as', rfl, rfl⟩

theorem forall₂_append_cases {α β : Type} {R : α → β → Prop} {xs ys : List α} {zs : List β}
    (h : List.Forall₂ R (xs ++ ys) zs) :
    ∃ ps qs, zs = ps ++ qs ∧ List.Forall₂ R xs ps ∧ List.Forall₂ R ys qs := by
  induction xs generalizing zs with
  | nil => exact ⟨[], zs, rfl, .nil, h⟩
  | cons x xs ih =>
      obtain ⟨p, zs, hx, hxs, rfl⟩ := List.forall₂_cons_left_iff.1 h
      obtain ⟨ps, qs, rfl, hps, hqs⟩ := ih hxs
      exact ⟨p :: ps, qs, rfl, .cons hx hps, hqs⟩

theorem PiecesOf.insert {c : Line} {xs ys : List Line} {pss : List (List Piece)}
    (h : PiecesOf n (xs ++ ys) pss) (hc : c.pieces n = .ok []) :
    ∃ qss, PiecesOf n (xs ++ c :: ys) qss ∧ qss.flatten = pss.flatten := by
  induction xs generalizing pss with
  | nil => exact ⟨[] :: pss, .cons hc h, rfl⟩
  | cons x xs ih =>
      obtain ⟨ps, pss, hx, hxs, rfl⟩ := List.forall₂_cons_left_iff.1 h
      obtain ⟨qss, hqss, hflat⟩ := ih hxs
      exact ⟨ps :: qss, .cons hx hqss, by rw [List.flatten_cons, hflat, List.flatten_cons]⟩

/-- A line without pieces is a block of its own in front of lines that are not of its block. -/
theorem LinesForm.lone {c : Line} {k : Nat} {ls : List Line} {is : List Instruction}
    (hblock : c.block = some k) (hc : c.pieces n = .ok []) (hhead : ∀ l ∈ ls.head?, l.block ≠ some k)
    (h : LinesForm n ls is) : LinesForm n (c :: ls) is := by
  have hms : ∀ m ∈ [c], m.block = some k := by simpa using hblock
  exact .block hms (.cons hc .nil) .nil hhead h

/-- A line without pieces changes nothing where all lines before are of its block or earlier ones, and
all lines behind of its block or later ones. -/
theorem LinesForm.insert {c : Line} {k : Nat} (hblock : c.block = some k) (hc : c.pieces n = .ok [])
    {xs ys : List Line} {is : List Instruction} (hxs : ∀ x ∈ xs, ∀ j ∈ x.block, j ≤ k)
    (hys : ∀ y ∈ ys, ∀ j ∈ y.block, k ≤ j) (h : LinesForm n (xs ++ ys) is) :
    LinesForm n (xs ++ c :: ys) is := by
  generalize hls : xs ++ ys = ls at h
  induction h generalizing xs with
  | nil =>
      obtain ⟨rfl, rfl⟩ := List.append_eq_nil_iff.1 hls
      exact .lone hblock hc nofun .nil
  | @text number fragments output ls is houtput h ih =>
      cases xs with
      | nil =>
          rw [List.nil_append] at hls
          subst hls
          exact .lone hblock hc (by rintro _ ⟨⟩; exact nofun) (.text houtput h)
      | cons x xs =>
          cases hls
          exact .text houtput (ih (fun y hy => hxs y (List.mem_cons_of_mem _ hy)) rfl)
  | @block j ms pss ls is js hms hps form hhead h ih =>
      rcases append_eq_append_cases hls with ⟨ms', rfl, rfl⟩ | ⟨x, xs', rfl, rfl⟩
      · by_cases hjk : j = k
        · subst hjk
          obtain ⟨qss, hqss, hflat⟩ := hps.insert hc
          have hms' : ∀ m ∈ xs ++ c :: ms', m.block = some j := by
            obtain ⟨hxs, hms'⟩ := List.forall_mem_append.1 hms
            exact List.forall_mem_append.2 ⟨hxs, List.forall_mem_cons.2 ⟨hblock, hms'⟩⟩
          rw [← List.cons_append, ← List.append_assoc]
          exact .block hms' hqss (by rwa [hflat]) hhead h
        · cases ms' with
          | nil =>
              have hc' : ∀ l ∈ (c :: ls).head?, l.block ≠ some j := by
                rintro _ ⟨⟩ hj
                exact hjk (Option.some.inj (hj.symm.trans hblock))
              have hmore : LinesForm n ([] ++ c :: ls) js :=
                ih (fun x hx => absurd hx List.not_mem_nil) rfl
              rw [List.append_nil] at hms hps
              exact .block hms hps form hc' hmore
          | cons m ms' =>
              have hm : m.block = some j := hms m (by simp)
              have hkj := hys m (by simp) j hm
              cases xs with
              | nil =>
                  refine .lone hblock hc ?_ (.block hms hps form hhead h)
                  rintro _ ⟨⟩ hk
                  exact hjk (Option.some.inj (hm.symm.trans hk))
              | cons x xs =>
                  have hjk' := hxs x List.mem_cons_self j (hms x List.mem_cons_self)
                  exact absurd (Nat.le_antisymm hjk' hkj) hjk
      · rw [List.append_assoc]
        refine .block hms hps form ?_ (ih ?_ rfl)
        · rintro _ ⟨⟩
          exact hhead x rfl
        · exact fun y hy => hxs y (List.mem_append_right ms hy)

/-! ## A statement left open -/

/-- Neighbouring lines of one block stand among the statements of the block. -/
theorem LinesForm.neighbours {k : Nat} {xs ms ys : List Line} {is : List Instruction} (hne : ms ≠ [])
    (hms : ∀ m ∈ ms, m.block = some k) (h : LinesForm n (xs ++ (ms ++ ys)) is) :
    ∃ front pss back js, PiecesOf n ms pss ∧ StatementsForm (front ++ (pss.flatten ++ back)) js := by
  generalize hls : xs ++ (ms ++ ys) = ls at h
  induction h generalizing xs with
  | nil =>
      have := List.append_eq_nil_iff.1 (List.append_eq_nil_iff.1 hls).2
      exact absurd this.1 hne
  | text _ _ ih =>
      cases xs with
      | nil =>
          cases ms with
          | nil => exact absurd rfl hne
          | cons m ms =>
              cases hls
              exact absurd (hms _ List.mem_cons_self) nofun
      | cons x xs =>
          cases hls
          exact ih rfl
  | @block j ns pss ls is js hns hps form hhead h ih =>
      rcases append_eq_append_cases hls with ⟨ns', rfl, hms'⟩ | ⟨x, xs', rfl, rfl⟩
      · rcases append_eq_append_cases hms' with ⟨ns'', rfl, rfl⟩ | ⟨m, ms', rfl, rfl⟩
        · obtain ⟨ps, qs, rfl, _, hqs⟩ := forall₂_append_cases hps
          obtain ⟨qs, rs, rfl, hqs, _⟩ := forall₂_append_cases hqs
          rw [List.flatten_append, List.flatten_append] at form
          exact ⟨_, _, _, _, hqs, form⟩
        · cases ns' with
          | nil => exact @ih [] rfl
          | cons m' ns' =>
              have hj := hns m' (by simp)
              have hk := hms m' (by simp)
              rw [hk] at hj
              exact absurd (hms m (by simp)) (hj ▸ hhead m rfl)
      · exact ih rfl

theorem PiecesOf.starts_with_text {c : Line} {k number : Nat} {fragments : List Fragment}
    {texts : List Line} {pss : List (List Piece)} (hc : c.pieces n = .ok [])
    (htexts : ∀ t ∈ texts, ∃ number fragments, t = .text number fragments (some k))
    (h : PiecesOf n (texts ++ [c, .text number fragments (some k)]) pss) :
    ∃ l output rest, pss.flatten = .text l output :: rest := by
  cases texts with
  | nil =>
      obtain ⟨_, _, hps, hmore, rfl⟩ := List.forall₂_cons_left_iff.1 h
      obtain ⟨_, pss, htext, _, rfl⟩ := List.forall₂_cons_left_iff.1 hmore
      obtain ⟨output, _, rfl⟩ := pieces_text.1 htext
      rw [hc] at hps
      cases hps
      exact ⟨_, _, _, rfl⟩
  | cons t texts =>
      obtain ⟨number, fragments, rfl⟩ := htexts t List.mem_cons_self
      obtain ⟨_, pss, htext, _, rfl⟩ := List.forall₂_cons_left_iff.1 h
      obtain ⟨output, _, rfl⟩ := pieces_text.1 htext
      exact ⟨_, _, _, rfl⟩

theorem LinesForm.not_unfinished {c : Line} {k number : Nat} {fragments : List Fragment}
    {ls rest : List Line} {is : List Instruction} (hblock : c.block = some k)
    (hc : c.pieces n = .ok []) (hls : EndsUnfinished k ls) :
    ¬ LinesForm n (ls ++ c :: .text number fragments (some k) :: rest) is := by
  obtain ⟨front, _, texts, rfl, ⟨m, cs, ts, t, rfl, hts, hlast, hopen⟩, htexts⟩ := hls
  intro h
  have hsplit : front ++ .code m cs k :: texts ++ c :: .text number fragments (some k) :: rest =
      front ++ (.code m cs k :: (texts ++ [c, .text number fragments (some k)]) ++ rest) := by simp
  rw [hsplit] at h
  have hms : ∀ l ∈ .code m cs k :: (texts ++ [c, .text number fragments (some k)]),
      l.block = some k := by
    intro l hl
    simp only [List.mem_cons, List.mem_append, List.not_mem_nil, or_false] at hl
    rcases hl with rfl | hl | rfl | rfl
    · rfl
    · obtain ⟨number, fragments, rfl⟩ := htexts l hl
      rfl
    · exact hblock
    · rfl
  obtain ⟨before, _, after, js, hps, form⟩ := h.neighbours (List.cons_ne_nil _ _) hms
  obtain ⟨ps, pss, hcode, hmore, rfl⟩ := List.forall₂_cons_left_iff.1 hps
  obtain ⟨l, output, rest', hpss⟩ := PiecesOf.starts_with_text hc htexts hmore
  obtain ⟨ts, rfl⟩ := List.getLast?_eq_some_iff.1 hlast
  rw [Line.pieces, Piece.ofCode, hts] at hcode
  cases hcode
  have form' : StatementsForm ((before ++ ts.map (.token m)) ++ .token m t ::
      .text l output :: (rest' ++ after)) js := by
    simpa [hpss] using form
  have hends := form'.endsStatement_of_text
  rw [hopen] at hends
  cases hends

end MailTemplate
