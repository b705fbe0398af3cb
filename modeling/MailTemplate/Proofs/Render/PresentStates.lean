import MailTemplate.Proofs.Compile.Expressions
import MailTemplate.Proofs.Compile.Output
import MailTemplate.Proofs.Render.Demands
import MailTemplate.Proofs.Render.Presence

/-!
# Nothing absent in a render

A compiled template that is rendered with data keeps what is absent within its tests: no variable is bound to it,
and nothing of it is printed, stored or gone through. Where a part is missing that is required, however deep within
an expression, the render ends with the error that tells it (`ofSource_present`).
-/

namespace MailTemplate

open Text

/-! ## Required parts -/

namespace Expr

variable {strict : Bool} {env : Environment} {line : Nat} {e e' : Expr} {v : Value} {ws : List Warning}

/-- What there is of a required expression has nothing absent in it, and would be the same in a test. -/
theorem Proper.eval_required (he : e.Proper) (henv : env.Present)
    (hv : e.eval strict env line .required = .ok (v, ws)) :
    v.Present ∧ e.eval strict env line .optional = .ok (v, ws) := by
  rw [eval_eq_checked] at hv ⊢
  have hresult : (e.appraise env line .required).result = .ok v := by
    unfold Appraisal.checked at hv
    split at hv <;> cases hv
    assumption
  exact ⟨he.appraise_present henv hresult, by rw [appraise_optional hresult, hv]⟩

theorem Proper.of_requires (he : e.Proper) (h : e.Requires strict env line e') : e'.Proper := by
  induction h with
  | here => exact he
  | member _ ih | base _ ih | left _ ih => exact ih he.1
  | operand _ ih => exact ih he
  | position _ _ ih | right _ _ _ ih => exact ih he.2
  | yes _ _ _ ih => exact ih he.2.1
  | no _ _ _ ih => exact ih he.2.2

end Expr

/-! ## Compiled templates -/

/-- Of a compiled template that is rendered with data, whatever the options: no event of the run shows anything
absent, and no variable has anything absent in it in any state that instructions are run from or that they evaluate a
required expression in. Every expression that is evaluated for such a one, with its own parts required, gives
something with nothing absent in it that would be the same in a test, or the render ends with an error. It does where
a part is missing of a path or an index, and then the error tells which one; and it does where a test would find the
expression absent. -/
theorem ofSource_present {source : String} {p : Program} (hp : Program.ofSource source = .ok p)
    (place : List Nat) (j : Json) (o : RenderOptions) (rounds : Nat) :
    (p.outcome o rounds (.ofJson place j) = p.recount o rounds (.ofJson place j) ∧
        ∀ event ∈ (p.journal o.limit rounds (.ofJson place j)).events, event.Present) ∧
      ∀ depth is m, Executes o rounds p (.ofJson place j) depth is m →
        m.env.Present ∧ (∀ e ∈ exprsOf is, e.Proper) ∧
          ∀ i ∈ is.head?, ∀ line whole m', i.Demands o rounds m line whole m' →
            m'.env.Present ∧ ∀ e, whole.Requires o.strict m'.env line e →
              (∀ v ws, e.eval o.strict m'.env line .required = .ok (v, ws) →
                v.Present ∧ e.eval o.strict m'.env line .optional = .ok (v, ws)) ∧
              (∀ err, e.eval o.strict m'.env line .required = .error err →
                p.FailsWith o (.ofJson place j) err) ∧
              (∀ cause, e.Lacks o.strict m'.env line cause →
                p.FailsWith o (.ofJson place j) ⟨line, cause⟩) ∧
              ∀ ws, e.eval o.strict m'.env line .optional = .ok (.absent, ws) →
                ∃ err, p.FailsWith o (.ofJson place j) err := by
  have hE := ofSource_proper hp
  have hmodel := Value.ofJson_present place j
  have hinitial := Environment.present_new hmodel
  refine ⟨⟨p.outcome_eq_recount o rounds _, ?_⟩, fun depth is m hexecutes => ?_⟩
  · exact (Journal.within_iff.1 (Environment.present_invariant.journal hinitial hE o.limit rounds)).events
  · obtain ⟨hm, his⟩ := Environment.present_invariant.of_executes hinitial hE hexecutes
    refine ⟨hm, his, ?_⟩
    rintro i hi line whole m' hdemands
    obtain ⟨is, rfl⟩ : ∃ is', is = i :: is' := List.head?_eq_some_iff.1 hi
    obtain ⟨hm', hwhole⟩ :=
      Environment.present_invariant.of_demands hm (List.forall_mem_append.1 his).1 hdemands
    refine ⟨hm', fun e hrequires => ?_⟩
    have he : e.Proper := hwhole.of_requires hrequires
    have hfails (err : RuntimeError) (herror : e.eval o.strict m'.env line .required = .error err) :
        p.FailsWith o (.ofJson place j) err := by
      refine hexecutes.failsWith ?_
      simp only [execAll]
      exact (hdemands.fails (hrequires.eval_error herror)).bind_left
    refine ⟨fun v ws => he.eval_required hm', hfails, fun cause hlacks => ?_, fun ws habsent => ?_⟩
    · exact hfails _ (Expr.eval_of_lacks hlacks)
    · cases hvalue : e.eval o.strict m'.env line .required with
      | error err => exact ⟨err, hfails err hvalue⟩
      | ok r =>
          obtain ⟨v, ws'⟩ := r
          obtain ⟨hpresent, hoptional⟩ := he.eval_required hm' hvalue
          cases habsent.symm.trans hoptional
          exact absurd rfl hpresent.ne_absent

theorem ofSource_greeting :
    Program.ofSource "@\x7b\nif (known) \x7b\nHi! @\x7b'Dear ' + user['name']\x7d\n\x7d\n\x7d" =
      .ok ⟨[.choose 2 (.test (.path ["known"]) [.literal 3 "Hi! ",
        .value 3 (.binary .add (.string "Dear ") (.index (.path ["user"]) (.string "name"))), .newline 3]
          .done)], .lf⟩ := by
  have hlines : linesOf "@\x7b\nif (known) \x7b\nHi! @\x7b'Dear ' + user['name']\x7d\n\x7d\n\x7d" =
      [['@', '{'], "if (known) \x7b".toList, "Hi! @\x7b'Dear ' + user['name']\x7d".toList, ['}'], ['}']] := by decide
  have ht : Template.ofSource "@\x7b\nif (known) \x7b\nHi! @\x7b'Dear ' + user['name']\x7d\n\x7d\n\x7d" =
      .ok ⟨[.code 2 "if (known) \x7b" 0, .text 3 [.literal "Hi! ", .expression "'Dear ' + user['name']"] (some 0),
        .code 4 "\x7d" 0], 5, .lf⟩ := by
    refine Reader.ofSource_eq_ok_iff.2 ⟨1, ?_, by decide, by decide⟩
    rw [hlines]
    cbv
  exact bind_eq_ok_iff.2 ⟨_, ht, by cbv⟩

/-- A user without a name. -/
def namelessUser : Json := .object [("known", .bool true), ("user", .object [])]

/-- A greeting by a name that is missing is no greeting of nobody. -/
theorem ofSource_present_namelessUser :
    ∃ p, Program.ofSource "@\x7b\nif (known) \x7b\nHi! @\x7b'Dear ' + user['name']\x7d\n\x7d\n\x7d" = .ok p ∧
      p.FailsWith ⟨true, none⟩ (.ofJson [] namelessUser) ⟨3, .missing (.key "name")⟩ := by
  have htest : Run.test ⟨true, none⟩ 2 (.path ["known"]) (Program.initial (.ofJson [] namelessUser)) =
      .ok true (Program.initial (.ofJson [] namelessUser)) := by cbv
  have hliteral : (Instruction.literal 3 "Hi! ").exec ⟨true, none⟩ 1 (Program.initial (.ofJson [] namelessUser)).push =
      .ok () ⟨(Environment.new (.ofJson [] namelessUser)).push, #[.text "Hi! "], #[], 0⟩ := by cbv
  have hleft : (Expr.string "Dear ").Gives true (Environment.new (.ofJson [] namelessUser)).push 3 .required
      (.string "Dear ") := ⟨[], rfl⟩
  have huser : (Expr.path ["user"]).Gives true (Environment.new (.ofJson [] namelessUser)).push 3 .required
      (.object (.ofMembers [1] [])) := ⟨[], by cbv⟩
  obtain ⟨_, _, hdemands⟩ := (ofSource_present ofSource_greeting [] namelessUser ⟨true, none⟩ 1).2 _ _ _
    (.next (.enter .start (.choose (.here htest))) hliteral)
  obtain ⟨_, hrequires⟩ := hdemands _ rfl _ _ _ .value
  obtain ⟨_, _, hlacks, _⟩ := hrequires _ (.right hleft ⟨by simp, by simp⟩ (.here _))
  exact ⟨_, ofSource_greeting, hlacks _ (.index huser ⟨[], rfl⟩ (.key rfl ⟨rfl, fun _ => rfl⟩))⟩

end MailTemplate
