import MailTemplate.Proofs.Template.Reaching

/-!
# References in text lines

Every reference of a template names something: its path begins with an identifier, which no line of a source
leaves out (`ofSource_reference`).
-/

namespace MailTemplate

namespace Fragment

theorem ofLine_reference {cs : List Char} {fs : List Fragment} (h : ofLine cs = .ok fs) {path : List String}
    (hpath : reference path ∈ fs) : path ≠ [] := by
  obtain ⟨_, hpath, _⟩ := exists_reaches h hpath
  exact hpath.ne_nil

end Fragment

/-- No reference of the line is empty. -/
def Line.Named : Line → Prop
  | text _ fragments _ => ∀ path, .reference path ∈ fragments → path ≠ []
  | code .. => True

namespace Reader

theorem codeLine_named {number k : Nat} {cs : List Char} {l : Line} (h : l ∈ codeLine number cs k) :
    l.Named := by
  unfold codeLine at h
  split at h
  · cases h
  · cases h
    trivial

theorem Steps.named {r r' : Reader} {number : Nat} {o : Option Line} (h : Steps r number o r') {l : Line}
    (hl : l ∈ o) : l.Named := by
  cases h with
  | text hfragments =>
      cases hl
      intro path hpath
      exact Fragment.ofLine_reference hfragments hpath
  | blank => cases hl
  | closing | code => exact codeLine_named hl

theorem ofSource_reference {source : String} {t : Template} (h : Template.ofSource source = .ok t) :
    ∀ l ∈ t.lines, l.Named := by
  obtain ⟨_, hrun, _⟩ := ofSource_eq_ok_iff.1 h
  have hstart : ∀ l ∈ ([] : List Line), l.Named := nofun
  refine run_invariant (P := fun _ ls _ => ∀ l ∈ ls, l.Named) (fun number ls r o r' hls hstep => ?_) hstart hrun
  intro l hl
  rcases List.mem_append.1 hl with hl | hl
  · exact hls l hl
  · exact hstep.named (Option.mem_toList.1 hl)

end Reader

end MailTemplate
