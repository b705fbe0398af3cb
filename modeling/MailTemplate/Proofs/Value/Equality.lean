import MailTemplate.Render.Eval
import Mathlib

/-!
# Equality of values

Equality is symmetric and transitive, since equality of numbers is, and a value is equal to itself unless there is not
a number in it (`Value.same_self_iff`). The operators see the same equality, but for values that cannot be compared
(`Value.equality_laws`).
-/

namespace MailTemplate

/-! ## Equality of numbers -/

namespace Number

open Float.Model

/-- Numbers that are equal: the same infinity, any two zeros, or finite numbers with the same parts. Not a number is
equal to none. -/
inductive Alike : UnpackedFloat → UnpackedFloat → Prop
  | infinity (s) : Alike (.infinity s) (.infinity s)
  | zero (s t) : Alike (.zero s) (.zero t)
  | finite (s m e h h') : Alike (.finite s m e h) (.finite s m e h')

variable {a b c : UnpackedFloat}

theorem alike_of_beq (h : a.beq b = true) : Alike a b := by
  cases a with
  | notANumber => cases h
  | infinity s =>
      cases b with
      | infinity t => cases s <;> cases t <;> first | exact .infinity _ | cases h
      | _ => cases s <;> cases h
  | zero s =>
      cases b with
      | zero t => exact .zero s t
      | notANumber => cases h
      | infinity t | finite t => cases t <;> cases h
  | finite s m e hm =>
      cases b with
      | finite t n f hn =>
          obtain ⟨rfl, rfl, rfl⟩ : s = t ∧ m = n ∧ e = f := by
            revert h
            cases s <;> cases t <;> simp [UnpackedFloat.beq, UnpackedFloat.compare, Ordering.then_eq_eq, and_comm]
          exact .finite s m e hm hn
      | zero t => cases s <;> cases h
      | notANumber => cases s <;> cases h
      | infinity t => cases s <;> cases t <;> cases h

theorem beq_of_alike (h : Alike a b) : a.beq b = true := by
  cases h with
  | infinity s => cases s <;> rfl
  | zero => rfl
  | finite s m e => cases s <;> simp [UnpackedFloat.beq, UnpackedFloat.compare]

theorem Alike.symm (h : Alike a b) : Alike b a := by
  cases h with
  | infinity s => exact .infinity s
  | zero s t => exact .zero t s
  | finite s m e h h' => exact .finite s m e h' h

theorem Alike.trans (hab : Alike a b) (hbc : Alike b c) : Alike a c := by
  cases hab with
  | infinity s => exact hbc
  | zero s t =>
      cases hbc with
      | zero _ u => exact .zero s u
  | finite s m e h h' =>
      cases hbc with
      | finite _ _ _ _ h'' => exact .finite s m e h h''

theorem beq_symm {x y : Float} (h : (x == y) = true) : (y == x) = true := beq_of_alike (alike_of_beq h).symm

theorem beq_trans {x y z : Float} (hxy : (x == y) = true) (hyz : (y == z) = true) : (x == z) = true :=
  beq_of_alike ((alike_of_beq hxy).trans (alike_of_beq hyz))

theorem unpacked_beq_self (a : UnpackedFloat) : a.beq a = !a.isNaN := by
  cases a with
  | notANumber => rfl
  | infinity s => exact beq_of_alike (.infinity s)
  | zero s => exact beq_of_alike (.zero s s)
  | finite s m e h => exact beq_of_alike (.finite s m e h h)

theorem beq_self (x : Float) : (x == x) = !x.isNaN := unpacked_beq_self _

end Number

namespace Value

/-! ## What is equal to a value -/

section Shapes

variable {a b : Value}

@[simp]
theorem same_string_iff {s : String} : same (.string s) b = true ↔ b = .string s := by
  cases b with
  | string t => simpa [same] using eq_comm
  | _ => simp [same]

@[simp]
theorem same_number_iff {x : Float} : same (.number x) b = true ↔ ∃ y, b = .number y ∧ (x == y) = true := by
  cases b <;> simp [same]

@[simp]
theorem same_bool_iff {p : Bool} : same (.bool p) b = true ↔ b = .bool p := by
  cases b with
  | bool q => simpa [same] using eq_comm
  | _ => simp [same]

@[simp]
theorem same_null_iff : same .null b = true ↔ b = .null := by
  cases b <;> simp [same]

@[simp]
theorem same_absent_iff : same .absent b = true ↔ b = .absent := by
  cases b <;> simp [same]

@[simp]
theorem same_list_iff {as : List Value} : same (.list as) b = true ↔ ∃ bs, b = .list bs ∧ allSame as bs = true := by
  cases b <;> simp [same]

@[simp]
theorem same_object_iff {o : HostObject Value} : same (.object o) b = true ↔ ∃ p, b = .object p ∧ o.id = p.id := by
  cases b <;> simp [same]

end Shapes

/-! ## Symmetry and transitivity -/

mutual

theorem same_symm : (a b : Value) → same a b = true → same b a = true
  | .string s, b, h | .bool p, b, h | .null, b, h | .absent, b, h => by simp_all
  | .number x, b, h => by
      obtain ⟨y, rfl, hxy⟩ := same_number_iff.1 h
      exact same_number_iff.2 ⟨x, rfl, Number.beq_symm hxy⟩
  | .list as, b, h => by
      obtain ⟨bs, rfl, hitems⟩ := same_list_iff.1 h
      exact same_list_iff.2 ⟨as, rfl, allSame_symm as bs hitems⟩
  | .object o, b, h => by
      obtain ⟨p, rfl, hid⟩ := same_object_iff.1 h
      exact same_object_iff.2 ⟨o, rfl, hid.symm⟩

theorem allSame_symm : (as bs : List Value) → allSame as bs = true → allSame bs as = true
  | [], [], _ => rfl
  | a :: as, b :: bs, h => by
      simp only [allSame, Bool.and_eq_true] at h ⊢
      exact ⟨same_symm a b h.1, allSame_symm as bs h.2⟩

end

mutual

theorem same_trans : (a b c : Value) → same a b = true → same b c = true → same a c = true
  | .string _, b, c, hab, hbc | .bool _, b, c, hab, hbc | .null, b, c, hab, hbc | .absent, b, c, hab, hbc => by
      simp_all
  | .number x, b, c, hab, hbc => by
      obtain ⟨y, rfl, hxy⟩ := same_number_iff.1 hab
      obtain ⟨z, rfl, hyz⟩ := same_number_iff.1 hbc
      exact same_number_iff.2 ⟨z, rfl, Number.beq_trans hxy hyz⟩
  | .list as, b, c, hab, hbc => by
      obtain ⟨bs, rfl, hab⟩ := same_list_iff.1 hab
      obtain ⟨cs, rfl, hbc⟩ := same_list_iff.1 hbc
      exact same_list_iff.2 ⟨cs, rfl, allSame_trans as bs cs hab hbc⟩
  | .object o, b, c, hab, hbc => by
      obtain ⟨p, rfl, hop⟩ := same_object_iff.1 hab
      obtain ⟨q, rfl, hpq⟩ := same_object_iff.1 hbc
      exact same_object_iff.2 ⟨q, rfl, hop.trans hpq⟩

theorem allSame_trans : (as bs cs : List Value) → allSame as bs = true → allSame bs cs = true →
    allSame as cs = true
  | [], [], [], _, _ => rfl
  | a :: as, b :: bs, c :: cs, hab, hbc => by
      simp only [allSame, Bool.and_eq_true] at hab hbc ⊢
      exact ⟨same_trans a b c hab.1 hbc.1, allSame_trans as bs cs hab.2 hbc.2⟩

end

theorem same_comm (a b : Value) : same a b = same b a :=
  Bool.eq_iff_iff.2 ⟨same_symm a b, same_symm b a⟩

/-! ## Values that equal themselves -/

/-- The number is the value, or is in a list that the value is, or in a list in that list, and so on. -/
inductive HasNumber : Value → Float → Prop
  | number (x : Float) : HasNumber (.number x) x
  | item {items v x} : v ∈ items → HasNumber v x → HasNumber (.list items) x

@[simp]
theorem hasNumber_number_iff {x y : Float} : HasNumber (.number x) y ↔ y = x := by
  constructor
  · rintro ⟨⟩
    rfl
  · rintro rfl
    exact .number y

@[simp]
theorem hasNumber_list_iff {items : List Value} {x : Float} :
    HasNumber (.list items) x ↔ ∃ v ∈ items, HasNumber v x := by
  constructor
  · intro h
    cases h with
    | item hv hx => exact ⟨_, hv, hx⟩
  · rintro ⟨v, hv, hx⟩
    exact .item hv hx

/-- Only numbers and lists have numbers in them. -/
theorem HasNumber.kind {v : Value} {x : Float} (h : HasNumber v x) : v.kind = .number ∨ v.kind = .list := by
  cases h with
  | number => exact .inl rfl
  | item => exact .inr rfl

/-- Anything holds of all numbers in a value that is neither a number nor a list. -/
theorem forall_hasNumber {v : Value} {p : Float → Prop} (hn : v.kind ≠ .number) (hl : v.kind ≠ .list) :
    ∀ x, HasNumber v x → p x :=
  fun _ hx => absurd hx.kind (by simp [hn, hl])

mutual

/-- A value is equal to itself if and only if all numbers in it are. -/
theorem same_self_iff : (v : Value) → (same v v = true ↔ ∀ x, HasNumber v x → (x == x) = true)
  | .string _ => iff_of_true (by simp) (forall_hasNumber nofun nofun)
  | .bool _ => iff_of_true (by simp) (forall_hasNumber nofun nofun)
  | .null => iff_of_true (by simp) (forall_hasNumber nofun nofun)
  | .absent => iff_of_true (by simp) (forall_hasNumber nofun nofun)
  | .object _ => iff_of_true (by simp) (forall_hasNumber nofun nofun)
  | .number x => by simp
  | .list items => by
      have hitems : same (.list items) (.list items) = true ↔ allSame items items = true := by simp
      rw [hitems, allSame_self_iff items]
      constructor
      · intro h x hx
        obtain ⟨v, hv, hx⟩ := hasNumber_list_iff.1 hx
        exact h v hv x hx
      · exact fun h v hv x hx => h x (.item hv hx)

theorem allSame_self_iff : (vs : List Value) →
    (allSame vs vs = true ↔ ∀ v ∈ vs, ∀ x, HasNumber v x → (x == x) = true)
  | [] => by simp [allSame]
  | v :: vs => by simp [allSame, same_self_iff v, allSame_self_iff vs]

end

/-! ## The operators -/

section Operators

variable {l r : Value}

/-- The operators can compare two values: one of them is `null` or `absent`, or they are of one kind. -/
def Comparable (l r : Value) : Prop := l.isNullish = true ∨ r.isNullish = true ∨ l.kind = r.kind

theorem Comparable.symm (h : Comparable l r) : Comparable r l := by
  obtain hl | hr | hk := h
  · exact .inr (.inl hl)
  · exact .inl hr
  · exact .inr (.inr hk.symm)

/-- `null` is the same as `absent` to the operators, although it is not the same value. -/
theorem equals?_of_comparable (h : Comparable l r) :
    equals? l r = some (l.same r || (l.isNullish && r.isNullish)) := by
  cases l with
  | null | absent => cases r <;> simp [equals?, isNullish, same]
  | _ =>
      cases r with
      | null | absent => simp [equals?, isNullish, same]
      | _ => simp_all [Comparable, equals?, isNullish, kind]

theorem equals?_of_not_comparable (h : ¬ Comparable l r) : equals? l r = none := by
  simp only [Comparable, not_or] at h
  simp [equals?, h]

theorem eval_equal (strict : Bool) (line : Nat) (l r : Value) :
    BinaryOp.eval strict line .equal l r =
      match equals? l r with
      | some b => .ok (.bool b, [])
      | none => .fail line (.operands .equal l.kind r.kind) := by
  rw [BinaryOp.eval, result?]
  cases equals? l r with
  | none => rfl
  | some b => cases strict <;> rfl

theorem eval_notEqual (strict : Bool) (line : Nat) (l r : Value) :
    BinaryOp.eval strict line .notEqual l r =
      match equals? l r with
      | some b => .ok (.bool !b, [])
      | none => .fail line (.operands .notEqual l.kind r.kind) := by
  rw [BinaryOp.eval, result?]
  cases equals? l r with
  | none => rfl
  | some b => cases strict <;> rfl

end Operators

/-- Equality is a partial equivalence, and a value is equal to itself unless there is not a number in it, at any depth
of lists in lists. The operators fail on values that are not comparable and only on those; on the others `==` gives the
same from both sides, which `!=` negates. -/
theorem equality_laws :
    (∀ a b : Value, a.same b = b.same a) ∧
    (∀ a b c : Value, a.same b = true → b.same c = true → a.same c = true) ∧
    (∀ v : Value, (v.same v = true ↔ ∀ x, HasNumber v x → (x == x) = true) ∧
      (v.same v = true ↔ ∀ x, HasNumber v x → x.isNaN = false)) ∧
    ∀ strict line, ∀ l r : Value,
      (Comparable l r → ∃ b, b = (l.same r || (l.isNullish && r.isNullish)) ∧
        BinaryOp.eval strict line .equal l r = .ok (.bool b, []) ∧
        BinaryOp.eval strict line .equal r l = .ok (.bool b, []) ∧
        BinaryOp.eval strict line .notEqual l r = .ok (.bool !b, [])) ∧
      (¬ Comparable l r →
        BinaryOp.eval strict line .equal l r = .fail line (.operands .equal l.kind r.kind) ∧
        BinaryOp.eval strict line .equal r l = .fail line (.operands .equal r.kind l.kind) ∧
        BinaryOp.eval strict line .notEqual l r = .fail line (.operands .notEqual l.kind r.kind)) := by
  refine ⟨same_comm, same_trans, fun v => ⟨same_self_iff v, ?_⟩, fun strict line l r => ⟨fun h => ?_, fun h => ?_⟩⟩
  · simp [same_self_iff v, Number.beq_self]
  · refine ⟨_, rfl, ?_, ?_, ?_⟩
    · rw [eval_equal, equals?_of_comparable h]
    · rw [eval_equal, equals?_of_comparable h.symm, same_comm r l, Bool.and_comm]
    · rw [eval_notEqual, equals?_of_comparable h]
  · rw [eval_equal, eval_equal, eval_notEqual, equals?_of_not_comparable h,
      equals?_of_not_comparable fun hrl => h hrl.symm]
    exact ⟨rfl, rfl, rfl⟩

/-- Not a number, two lists deep, makes a list differ from itself; `null` and `absent` are equal to the operators, but
lists of them are not; and a string cannot be compared with a number. -/
theorem equality_laws_nan :
    same (.list [.list [.number (0 / 0)]]) (.list [.list [.number (0 / 0)]]) = false ∧
    BinaryOp.eval true 1 .equal .absent .null = .ok (.bool true, []) ∧
    BinaryOp.eval true 1 .notEqual (.list [.null]) (.list [.absent]) = .ok (.bool true, []) ∧
    BinaryOp.eval true 1 .notEqual (.string "1") (.number 1) = .fail 1 (.operands .notEqual .string .number) := by
  obtain ⟨-, -, hself, hops⟩ := equality_laws
  refine ⟨Bool.eq_false_iff.2 fun h => ?_, ?_, ?_, ?_⟩
  · have hnan := (hself _).2.1 h (0 / 0) (.item (.head _) (.item (.head _) (.number _)))
    exact absurd hnan (by decide)
  · obtain ⟨_, rfl, -, heq, -⟩ := (hops true 1 .null .absent).1 (.inl rfl)
    exact heq
  · obtain ⟨_, rfl, -, -, hne⟩ := (hops true 1 (.list [.null]) (.list [.absent])).1 (.inr (.inr rfl))
    exact hne
  · have hkinds : ¬ Comparable (.string "1") (.number 1) := by
      rintro (h | h | h) <;> cases h
    exact ((hops true 1 _ _).2 hkinds).2.2

end Value

end MailTemplate
