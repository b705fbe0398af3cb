import MailTemplate.Style
import Mathlib

/-!
# Placeholders in a document

No occurrence of the placeholder for a style sheet overlaps another one, and none reaches over an end of the
element that takes its place. So the element stands where the placeholder stood, and brings a placeholder with it
only if it holds one itself (`Style.styled_placeholder`).
-/

namespace MailTemplate.Style

/-! ## Occurrences -/

section Occurrences

variable {α : Type} {p w as bs : List α} {ps qs rs : List (List α)}

/-- What the text begins with and also ends with is empty or the whole text. -/
def Unbordered (p : List α) : Prop := ∀ s, s <+: p → s <:+ p → s = [] ∨ s = p

/-- `Separates p text ps`: the text is the pieces `ps` with `p` between them, and `p` occurs nowhere else in it. -/
structure Separates (p text : List α) (ps : List (List α)) : Prop where
  joined : p.intercalate ps = text
  between : ∀ front back, text = front ++ p ++ back →
    ∃ qs rs, ps = qs ++ rs ∧ qs ≠ [] ∧ rs ≠ [] ∧ p.intercalate qs = front ∧ p.intercalate rs = back

/-- No occurrence of `p` that begins before `w` reaches into it, and none that begins in it reaches out of it. -/
structure Repels (w p : List α) : Prop where
  front : ∀ s t rest, p = s ++ t → s ≠ [] → t ≠ [] → ¬ t <+: w ++ rest
  back : ∀ s t, p = s ++ t → s ≠ [] → t ≠ [] → ¬ s <:+ w

theorem infix_append_cases (h : p <:+: as ++ bs) :
    p <:+: as ∨ p <:+: bs ∨ ∃ s t, p = s ++ t ∧ s ≠ [] ∧ t ≠ [] ∧ s <:+ as ∧ t <+: bs := by
  rcases List.infix_append_iff.1 h with h | h | ⟨s, t, rfl, hs, ht⟩
  · exact .inl h
  · exact .inr (.inl h)
  · by_cases hs' : s = []
    · subst hs'
      exact .inr (.inl ht.isInfix)
    · by_cases ht' : t = []
      · subst ht'
        rw [List.append_nil]
        exact .inl hs.isInfix
      · exact .inr (.inr ⟨s, t, rfl, hs', ht', hs, ht⟩)

theorem intercalate_append (hqs : qs ≠ []) (hrs : rs ≠ []) :
    w.intercalate (qs ++ rs) = w.intercalate qs ++ w ++ w.intercalate rs := by
  induction qs with
  | nil => exact absurd rfl hqs
  | cons q qs ih =>
      cases qs with
      | nil => rw [List.singleton_append, List.intercalate_cons_of_ne_nil hrs, List.intercalate_singleton]
      | cons q' qs =>
          have hne : q' :: qs ≠ [] := List.cons_ne_nil q' qs
          rw [List.cons_append, List.intercalate_cons_of_ne_nil (by simp), ih hne,
            List.intercalate_cons_of_ne_nil hne]
          simp only [List.append_assoc]

theorem prefix_intercalate {q : List α} : q <+: w.intercalate (q :: qs) := by
  by_cases hne : qs = []
  · subst hne
    rw [List.intercalate_singleton]
  · rw [List.intercalate_cons_of_ne_nil hne, List.append_assoc]
    exact List.prefix_append _ _

/-- An occurrence of `p` behind another one does not begin in it. -/
theorem Unbordered.apart (hp : Unbordered p) {front back rest : List α} (h : p ++ rest = front ++ p ++ back) :
    front = [] ∨ ∃ mid, front = p ++ mid ∧ rest = mid ++ p ++ back := by
  rw [List.append_assoc] at h
  rcases List.append_eq_append_iff.1 h with ⟨mid, hfront, hrest⟩ | ⟨s, hs, hback⟩
  · exact .inr ⟨mid, hfront, by rw [hrest, List.append_assoc]⟩
  · have hsuffix : s <:+ p := ⟨front, hs.symm⟩
    have hprefix : s <+: p :=
      List.prefix_of_prefix_length_le ⟨rest, hback.symm⟩ (List.prefix_append p back) hsuffix.length_le
    rcases hp s hprefix hsuffix with rfl | rfl
    · exact .inr ⟨[], by simpa using hs.symm, by simpa using hback.symm⟩
    · exact .inl (List.self_eq_append_left.1 hs)

/-- A text that is joined by `w` holds `p` only if a piece of it or `w` does. -/
theorem Repels.not_infix_intercalate (h : Repels w p) (hw : ¬ p <:+: w) (hps : ∀ q ∈ ps, ¬ p <:+: q) :
    ¬ p <:+: w.intercalate ps := by
  induction ps with
  | nil =>
      intro hp
      obtain rfl : p = [] := List.infix_nil.1 hp
      exact hw List.nil_infix
  | cons q ps ih =>
      obtain ⟨hq, hps⟩ := List.forall_mem_cons.1 hps
      by_cases hne : ps = []
      · subst hne
        rwa [List.intercalate_singleton]
      · rw [List.intercalate_cons_of_ne_nil hne, List.append_assoc]
        intro hp
        rcases infix_append_cases hp with hp | hp | ⟨s, t, rfl, hs, ht, _, hprefix⟩
        · exact hq hp
        · rcases infix_append_cases hp with hp | hp | ⟨s, t, rfl, hs, ht, hsuffix, _⟩
          · exact hw hp
          · exact ih hps hp
          · exact h.back s t rfl hs ht hsuffix
        · exact h.front s t _ rfl hs ht hprefix

end Occurrences

/-! ## Pieces -/

section Pieces

variable {q c : Char} {qs cs rest : List Char} {ps ps' : List (List Char)}

theorem extend_append (h : ps ≠ []) (ps' : List (List Char)) : extend c (ps ++ ps') = extend c ps ++ ps' := by
  cases ps with
  | nil => exact absurd rfl h
  | cons p ps => rfl

theorem extend_ne_nil : extend c ps ≠ [] := by
  cases ps <;> exact List.cons_ne_nil _ _

theorem intercalate_extend (w : List Char) : w.intercalate (extend c ps) = c :: w.intercalate ps := by
  match ps with
  | [] => rfl
  | [p] => simp [extend]
  | p :: p' :: ps => simp [extend, List.intercalate_cons_cons]

theorem pieces_append (q : Char) (qs rest : List Char) : pieces q qs (q :: qs ++ rest) = [] :: pieces q qs rest := by
  have hprefix : (q :: qs).isPrefixOf (q :: (qs ++ rest)) = true := by
    rw [List.isPrefixOf_iff_prefix, ← List.cons_append]
    exact List.prefix_append _ _
  rw [List.cons_append, pieces, if_pos hprefix, List.drop_left]

theorem pieces_cons (h : ¬ q :: qs <+: c :: cs) : pieces q qs (c :: cs) = extend c (pieces q qs cs) := by
  rw [pieces, if_neg (by rwa [List.isPrefixOf_iff_prefix])]

/-- A text is empty, begins with the placeholder, or begins with a character at which the placeholder does not begin. -/
theorem placeholder_induction (q : Char) (qs : List Char) {P : List Char → Prop} (nil : P [])
    (placeholder : ∀ rest, P rest → P (q :: qs ++ rest)) (cons : ∀ c cs, ¬ q :: qs <+: c :: cs → P cs → P (c :: cs))
    (cs : List Char) : P cs := by
  fun_induction pieces q qs cs with
  | case1 => exact nil
  | case2 c cs h ih =>
      obtain ⟨rest, hrest⟩ := List.isPrefixOf_iff_prefix.1 h
      have hcs : qs ++ rest = cs := (List.cons.inj hrest).2
      rw [← hcs, List.drop_left] at ih
      rw [← hrest]
      exact placeholder rest ih
  | case3 c cs h ih => exact cons c cs (by rwa [List.isPrefixOf_iff_prefix] at h) ih

theorem pieces_ne_nil : pieces q qs cs ≠ [] := by
  induction cs using placeholder_induction q qs with
  | nil => rw [pieces]; exact List.cons_ne_nil _ _
  | placeholder rest => rw [pieces_append]; exact List.cons_ne_nil _ _
  | cons c cs h => rw [pieces_cons h]; exact extend_ne_nil

theorem intercalate_pieces : (q :: qs).intercalate (pieces q qs cs) = cs := by
  induction cs using placeholder_induction q qs with
  | nil => rw [pieces, List.intercalate_singleton]
  | placeholder rest ih => rw [pieces_append, List.intercalate_cons_of_ne_nil pieces_ne_nil, ih, List.nil_append]
  | cons c cs h ih => rw [pieces_cons h, intercalate_extend, ih]

theorem not_infix_of_mem_pieces : ∀ p ∈ pieces q qs cs, ¬ q :: qs <:+: p := by
  induction cs using placeholder_induction q qs with
  | nil =>
      rw [pieces]
      simp
  | placeholder rest ih =>
      rw [pieces_append]
      exact List.forall_mem_cons.2 ⟨by simp, ih⟩
  | cons c cs h ih =>
      rw [pieces_cons h]
      have hjoined : (q :: qs).intercalate (pieces q qs cs) = cs := intercalate_pieces
      have hne : pieces q qs cs ≠ [] := pieces_ne_nil
      obtain ⟨p, ps, hpieces⟩ := List.exists_cons_of_ne_nil hne
      rw [hpieces] at ih hjoined ⊢
      obtain ⟨hp, hps⟩ := List.forall_mem_cons.1 ih
      refine List.forall_mem_cons.2 ⟨fun hinfix => ?_, hps⟩
      rcases List.infix_cons_iff.1 hinfix with hprefix | hinfix
      · rw [← hjoined] at h
        exact h (List.IsPrefix.trans hprefix (List.cons_prefix_cons.2 ⟨rfl, prefix_intercalate⟩))
      · exact hp hinfix

/-- A text without a placeholder is one piece. -/
theorem pieces_of_absent (h : ¬ q :: qs <:+: cs) : pieces q qs cs = [cs] := by
  induction cs using placeholder_induction q qs with
  | nil => rw [pieces]
  | placeholder rest => exact absurd (List.prefix_append _ _).isInfix h
  | cons c cs hprefix ih =>
      rw [pieces_cons hprefix, ih fun hinfix => h (List.infix_cons hinfix)]
      rfl

theorem separates_pieces (hp : Unbordered (q :: qs)) : Separates (q :: qs) cs (pieces q qs cs) := by
  refine ⟨intercalate_pieces, ?_⟩
  induction cs using placeholder_induction q qs with
  | nil =>
      intro front back h
      simp at h
  | placeholder rest ih =>
      intro front back h
      rw [pieces_append]
      rcases hp.apart h with rfl | ⟨mid, rfl, rfl⟩
      · obtain rfl : rest = back := List.append_cancel_left h
        exact ⟨[[]], pieces q qs rest, rfl, List.cons_ne_nil _ _, pieces_ne_nil, List.intercalate_singleton,
          intercalate_pieces⟩
      · obtain ⟨ps, ps', hpieces, hne, hne', hfront, hback⟩ := ih mid back rfl
        refine ⟨[] :: ps, ps', by rw [hpieces]; rfl, List.cons_ne_nil _ _, hne', ?_, hback⟩
        rw [List.intercalate_cons_of_ne_nil hne, hfront, List.nil_append]
  | cons c cs hprefix ih =>
      intro front back h
      cases front with
      | nil => exact absurd ⟨back, h.symm⟩ hprefix
      | cons d front =>
          have hcs : cs = front ++ (q :: qs) ++ back := (List.cons.inj h).2
          obtain rfl : c = d := (List.cons.inj h).1
          obtain ⟨ps, ps', hpieces, hne, hne', hfront, hback⟩ := ih front back hcs
          refine ⟨extend c ps, ps', ?_, extend_ne_nil, hne', ?_, hback⟩
          · rw [pieces_cons hprefix, hpieces, extend_append hne]
          · rw [intercalate_extend, hfront]

end Pieces

/-! ## Injected blocks -/

section Inject

variable {body block placeholder : String}

/-- Whether a text holds another one. -/
def Contains (text part : String) : Prop := part.toList <:+: text.toList

/-- The block stands where the placeholder stood, between the same pieces of the document. -/
theorem inject_separates (hne : placeholder ≠ "") (hp : Unbordered placeholder.toList) (body block : String) :
    ∃ ps, Separates placeholder.toList body.toList ps ∧ (∀ p ∈ ps, ¬ placeholder.toList <:+: p) ∧
      (inject body block placeholder).toList = block.toList.intercalate ps := by
  unfold inject
  split
  · rename_i hnil
    exact absurd (String.toList_eq_nil_iff.1 hnil) hne
  · rename_i q qs hcons
    rw [hcons] at hp ⊢
    exact ⟨_, separates_pieces hp, not_infix_of_mem_pieces, String.toList_ofList⟩

theorem inject_of_not_contains (h : ¬ Contains body placeholder) : inject body block placeholder = body := by
  unfold inject
  split
  · rfl
  · rename_i q qs hcons
    rw [Contains, hcons] at h
    rw [pieces_of_absent h, List.intercalate_singleton, String.ofList_toList]

theorem inject_contains_iff (hne : placeholder ≠ "") (hp : Unbordered placeholder.toList)
    (hrepels : Repels block.toList placeholder.toList) (body : String) :
    Contains (inject body block placeholder) placeholder ↔ Contains body placeholder ∧ Contains block placeholder := by
  obtain ⟨ps, hps, hpieces, hdocument⟩ := inject_separates hne hp body block
  constructor
  · intro h
    have hbody : Contains body placeholder := by
      by_contra hbody
      rw [inject_of_not_contains hbody] at h
      exact hbody h
    refine ⟨hbody, ?_⟩
    by_contra hblock
    rw [Contains, hdocument] at h
    exact hrepels.not_infix_intercalate hblock hpieces h
  · rintro ⟨⟨front, back, hbody⟩, hblock⟩
    obtain ⟨qs, rs, rfl, hqs, hrs, _, _⟩ := hps.between front back hbody.symm
    rw [Contains, hdocument, intercalate_append hqs hrs]
    exact hblock.trans (List.infix_append _ _ _)

end Inject

/-! ## Style sheets -/

theorem unbordered_defaultPlaceholder : Unbordered defaultPlaceholder.toList := by
  have h : ∀ s ∈ defaultPlaceholder.toList.inits, s <:+ defaultPlaceholder.toList →
      s = [] ∨ s = defaultPlaceholder.toList := by decide
  exact fun s hs => h s ((List.mem_inits _ _).2 hs)

theorem repels_wrap (css : String) : Repels (wrap css).toList defaultPlaceholder.toList where
  front s t rest hst hs ht hprefix := by
    -- The two characters at the front of the element are found in the placeholder at its front only.
    have htails : ∀ t ∈ defaultPlaceholder.toList.tails, t ≠ [] → t ≠ defaultPlaceholder.toList →
        ¬ t.take 2 <+: openTag := by decide
    have hproper : t ≠ defaultPlaceholder.toList := by
      intro h
      rw [← h] at hst
      exact hs (List.self_eq_append_left.1 hst)
    refine htails t ((List.mem_tails _ _).2 ⟨s, hst.symm⟩) ht hproper ?_
    have hopen : openTag <+: (wrap css).toList ++ rest := by
      rw [wrap, String.toList_ofList]
      simp only [List.append_assoc]
      exact List.prefix_append _ _
    refine List.prefix_of_prefix_length_le ((List.take_prefix 2 t).trans hprefix) hopen ?_
    exact (List.length_take_le 2 t).trans (by decide)
  back s t hst hs _ hsuffix := by
    have hlast : s.getLast hs = '\n' := by
      rw [hsuffix.getLast hs]
      simp [wrap]
    have hmem : '\n' ∈ defaultPlaceholder.toList := by
      rw [hst, ← hlast]
      exact List.mem_append_left _ (List.getLast_mem hs)
    revert hmem
    decide

/-- The document with the style sheet in place of the placeholder that a document has by default. -/
def styled (body css : String) : String := inject body (wrap css) defaultPlaceholder

/-- The style sheet stands in its element where the placeholder stood. The placeholder is left in the document only if
the style sheet brings it with it; if not, the document takes no other style sheet. -/
theorem styled_placeholder (body css : String) :
    (∃ ps, Separates defaultPlaceholder.toList body.toList ps ∧
      (styled body css).toList = (wrap css).toList.intercalate ps) ∧
    (Contains (styled body css) defaultPlaceholder ↔
      Contains body defaultPlaceholder ∧ Contains (wrap css) defaultPlaceholder) ∧
    (¬ Contains (wrap css) defaultPlaceholder →
      ∀ block, inject (styled body css) block defaultPlaceholder = styled body css) := by
  have hne : defaultPlaceholder ≠ "" := by decide
  have hiff := inject_contains_iff hne unbordered_defaultPlaceholder (repels_wrap css) body
  refine ⟨?_, hiff, fun hwrap block => ?_⟩
  · obtain ⟨ps, hps, _, hdocument⟩ := inject_separates hne unbordered_defaultPlaceholder body (wrap css)
    exact ⟨ps, hps, hdocument⟩
  · exact inject_of_not_contains fun h => hwrap (hiff.1 h).2

/-- Two placeholders next to each other are both replaced, and an empty style sheet leaves a placeholder. -/
theorem styled_placeholder_adjacent :
    ¬ Contains (styled "<style></style><style></style>" "a") defaultPlaceholder ∧
      (∀ block, inject (styled "<style></style><style></style>" "a") block defaultPlaceholder =
        styled "<style></style><style></style>" "a") ∧
      Contains (styled "<p><style></style>" "") defaultPlaceholder := by
  have hsheet : ¬ Contains (wrap "a") defaultPlaceholder := by
    rw [Contains]
    decide
  have hempty : Contains (wrap "") defaultPlaceholder := ⟨[], ['\n'], rfl⟩
  have hbody : Contains "<p><style></style>" defaultPlaceholder := ⟨['<', 'p', '>'], [], rfl⟩
  exact ⟨fun h => hsheet ((styled_placeholder _ _).2.1.1 h).2, (styled_placeholder _ _).2.2 hsheet,
    (styled_placeholder _ _).2.1.2 ⟨hbody, hempty⟩⟩

end MailTemplate.Style
