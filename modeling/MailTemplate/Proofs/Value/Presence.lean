import MailTemplate.Json.Basic
import MailTemplate.Proofs.Results
import MailTemplate.Value.Access
import MailTemplate.Value.Operators
import Mathlib

/-!
# Values with nothing absent in them

The value of data has nothing absent in it (`Value.ofJson_present`), and neither have its members and elements,
nor what paths, indexes and operators that require their parts give for such values.
-/

namespace MailTemplate

namespace Value

/-- The value is not `absent` and has no `absent` anywhere in it. -/
inductive Present : Value → Prop
  | string (s : String) : Present (.string s)
  | number (x : Float) : Present (.number x)
  | bool (b : Bool) : Present (.bool b)
  | null : Present .null
  | list {items} : (∀ v ∈ items, Present v) → Present (.list items)
  | object {o : HostObject Value} : (∀ name v, o.member name = some v → Present v) →
      (∀ items, o.elements = some items → ∀ i, Present (items.get i)) →
      (∀ i v, o.element i = some v → Present v) → Present (.object o)

variable {v base position : Value}

theorem Present.ne_absent (h : v.Present) : v ≠ .absent := by
  rintro rfl
  cases h

/-! ## Parts of values -/

theorem Present.elements (h : v.Present) {items : List Value} (hitems : v.elements? = some items) :
    ∀ item ∈ items, item.Present := by
  cases h with
  | list hitem =>
      cases hitems
      exact hitem
  | object _ helements _ =>
      obtain ⟨s, hs, rfl⟩ := Option.map_eq_some_iff.1 hitems
      intro item hitem
      obtain ⟨i, rfl⟩ := List.mem_ofFn.1 hitem
      exact helements s hs i
  | _ => cases hitems

theorem Present.element (h : base.Present) {i : Nat} (hv : base.element? i = some v) : v.Present := by
  cases h with
  | list hitem => exact hitem v (List.mem_of_getElem? hv)
  | object _ _ helement => exact helement i v hv
  | _ => cases hv

theorem builtin?_present {name : String} (hv : base.builtin? name = some v) : v.Present := by
  unfold builtin? at hv
  split at hv
  · split at hv
    · cases hv
      exact .number _
    · obtain ⟨n, _, rfl⟩ := Option.map_eq_some_iff.1 hv
      exact .number _
  · cases hv

theorem Present.member (h : base.Present) {name : String} (hv : base.member? name = some v) :
    v.Present := by
  unfold member? at hv
  simp only at hv
  split at hv
  · rename_i hown
    cases hv
    cases h with
    | object hmember _ _ => exact hmember name v hown
    | _ => cases hown
  · exact builtin?_present hv

/-! ## Paths and indexes -/

section Access

variable {found : Option Value} {cause : FaultCause} {before segments : List String} {mode : Resolution}

theorem orMissing_required (hv : orMissing found .required cause = .ok v) : found = some v := by
  cases found <;> cases hv
  rfl

/-- What is there is the same when it need not be there. -/
theorem orMissing_optional (hv : orMissing found .required cause = .ok v) :
    orMissing found .optional cause = .ok v := by
  rw [orMissing_required hv]
  rfl

theorem resolve_absent : absent.resolve before segments mode = .ok .absent := by
  cases segments <;> rfl

theorem resolve_member (hbase : base ≠ .absent) {name : String} :
    base.resolve before (name :: segments) mode =
      match base.member? name with
      | some v => v.resolve (before ++ [name]) segments mode
      | none => orMissing none mode (.missing (.names (before ++ [name]))) := by
  cases base with
  | absent => exact absurd rfl hbase
  | _ => cases mode <;> rfl

theorem resolve_cons (hbase : base ≠ .absent) {name : String} :
    base.resolve before (name :: segments) mode =
      orMissing (base.member? name) mode (.missing (.names (before ++ [name]))) >>= fun v =>
        v.resolve (before ++ [name]) segments mode := by
  rw [resolve_member hbase]
  cases base.member? name with
  | some v => rfl
  | none =>
      cases mode with
      -- The rest of the path stays where the missing part leads.
      | optional => exact resolve_absent.symm
      | required => rfl

theorem Present.resolve (h : base.Present) (hv : base.resolve before segments .required = .ok v) :
    v.Present := by
  induction segments generalizing base before with
  | nil =>
      cases hv
      exact h
  | cons name rest ih =>
      rw [resolve_cons h.ne_absent] at hv
      obtain ⟨next, hnext, hv⟩ := bind_eq_ok_iff.1 hv
      exact ih (h.member (orMissing_required hnext)) hv

theorem resolve_optional (hv : base.resolve before segments .required = .ok v) :
    base.resolve before segments .optional = .ok v := by
  induction segments generalizing base before with
  | nil => exact hv
  | cons name rest ih =>
      by_cases hbase : base = .absent
      · subst hbase
        exact hv
      · rw [resolve_cons hbase] at hv ⊢
        obtain ⟨next, hnext, hv⟩ := bind_eq_ok_iff.1 hv
        exact bind_eq_ok_iff.2 ⟨next, orMissing_optional hnext, ih hv⟩

theorem index_required (hv : base.index position .required = .ok v) :
    (∃ key, base.member? key = some v) ∨ ∃ i, base.element? i = some v := by
  unfold index at hv
  split at hv
  · split at hv
    · exact .inl ⟨_, orMissing_required hv⟩
    · split at hv
      · cases hv
      · obtain ⟨i, _, hi⟩ := Option.bind_eq_some_iff.1 (orMissing_required hv)
        exact .inr ⟨i, hi⟩
    · cases hv
  · split at hv
    · contradiction
    · cases hv

theorem Present.index (h : base.Present) (hv : base.index position .required = .ok v) : v.Present := by
  rcases index_required hv with ⟨key, hv⟩ | ⟨i, hv⟩
  · exact h.member hv
  · exact h.element hv

theorem index_optional (hv : base.index position .required = .ok v) :
    base.index position .optional = .ok v := by
  unfold Value.index at hv ⊢
  split at hv
  · rename_i hcomposite
    rw [if_pos hcomposite]
    cases position with
    | string key => exact orMissing_optional hv
    | number x =>
        simp only at hv ⊢
        cases hcount : base.count? with
        | none => rw [hcount] at hv; cases hv
        | some count =>
            rw [hcount] at hv
            exact orMissing_optional hv
    | _ => cases hv
  · split at hv
    · contradiction
    · cases hv

end Access

/-! ## Operators -/

theorem result?_present {op : BinaryOp} {l r : Value} (hv : result? op l r = some v) : v.Present := by
  cases op with
  | add =>
      rw [result?, add.eq_def] at hv
      split at hv
      · cases hv
        exact .number _
      · split at hv <;> cases hv
        exact .string _
      · split at hv <;> cases hv
        exact .string _
      · cases hv
  | sub | mul | div | rem =>
      simp only [result?] at hv
      split at hv <;> cases hv
      exact .number _
  | equal | notEqual | less | greater | atMost | atLeast =>
      obtain ⟨b, _, rfl⟩ := Option.map_eq_some_iff.1 hv
      exact .bool _
  | andAlso | orElse =>
      cases hv
      exact .bool _

/-! ## Data -/

theorem mem_insertMember {α : Type} {name : String} {a : α} {m : String × α} {ms : List (String × α)}
    (h : m ∈ insertMember name a ms) : m = (name, a) ∨ m ∈ ms := by
  induction ms with
  | nil => exact .inl (List.mem_singleton.1 h)
  | cons n ms ih =>
      obtain ⟨n, b⟩ := n
      rw [insertMember] at h
      split at h
      · exact List.mem_cons.1 h
      · split at h
        · exact (List.mem_cons.1 h).imp_right (List.mem_cons_of_mem _)
        · rcases List.mem_cons.1 h with rfl | h
          · exact .inr List.mem_cons_self
          · exact (ih h).imp_right (List.mem_cons_of_mem _)

theorem mem_of_mem_sortMembers {α : Type} {m : String × α} {ms : List (String × α)} (h : m ∈ sortMembers ms) :
    m ∈ ms := by
  suffices ∀ sorted : List (String × α),
      m ∈ ms.foldl (fun sorted m => insertMember m.1 m.2 sorted) sorted → m ∈ sorted ∨ m ∈ ms from
    (this [] h).resolve_left List.not_mem_nil
  clear h
  induction ms with
  | nil => exact fun sorted h => .inl h
  | cons n ms ih =>
      intro sorted h
      rcases ih _ h with h | h
      · rcases mem_insertMember h with rfl | h
        · exact .inr List.mem_cons_self
        · exact .inl h
      · exact .inr (List.mem_cons_of_mem _ h)

theorem mem_of_lookup {α : Type} {name : String} {a : α} {ms : List (String × α)}
    (h : ms.lookup name = some a) : (name, a) ∈ ms := by
  obtain ⟨front, back, rfl, _⟩ := List.lookup_eq_some_iff.1 h
  simp

theorem Present.ofMembers {id : List Nat} {ms : List (String × Value)} (h : ∀ m ∈ ms, m.2.Present) :
    Present (.object (.ofMembers id ms)) := by
  refine .object (fun name v hv => ?_) nofun nofun
  exact h _ (mem_of_mem_sortMembers (mem_of_lookup hv))

mutual

theorem ofJson_present (place : List Nat) (j : Json) : (ofJson place j).Present := by
  match j with
  | .null => exact .null
  | .bool b => exact .bool b
  | .number x => exact .number x
  | .string s => exact .string s
  | .array items => exact .list (ofItems_present place 0 items)
  | .object ms => exact .ofMembers (ofMembers_present place 0 ms)

theorem ofItems_present (place : List Nat) (i : Nat) (js : List Json) :
    ∀ v ∈ ofItems place i js, v.Present := by
  match js with
  | [] => exact List.forall_mem_nil _
  | j :: js =>
      exact List.forall_mem_cons.2 ⟨ofJson_present (i :: place) j, ofItems_present place (i + 1) js⟩

theorem ofMembers_present (place : List Nat) (i : Nat) (ms : List (String × Json)) :
    ∀ m ∈ Value.ofMembers place i ms, m.2.Present := by
  match ms with
  | [] => exact List.forall_mem_nil _
  | (_, j) :: ms =>
      exact List.forall_mem_cons.2 ⟨ofJson_present (i :: place) j, ofMembers_present place (i + 1) ms⟩

end

end Value

end MailTemplate
