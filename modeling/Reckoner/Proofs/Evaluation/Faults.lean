import Reckoner.Proofs.Texts
import Reckoner.Proofs.Typing.Soundness

/-!
# Which fault is reported

The evaluation of an expression fails where an integer is divided by zero for the first time, counted
in the order in which the parts of the expression are evaluated. It fails there no matter what stands
above, and with the dividend that was computed.

* `TypedExpression.parts`: the parts of an expression, the operands before what stands above them.
* `TypedExpression.DividesByZero`: a part divides an integer by zero.
* `TypedExpression.exists_evaluate_eq_of_mem_parts`: what has a value has no part without one.
* `TypedExpression.WellTyped.failsFirst`: a fault is that of a part in front of which all parts have
  values.
* **`evaluate_eq_fault_iff_first`**: the fault that is reported is the first one, and there is one
  wherever an integer is divided by zero.
-/

namespace Reckoner

/-- What a division does. -/
def Division.operation : Division → BinaryOperation
  | quotient => .division
  | remainder => .modulo

namespace TypedExpression

/-- The expressions of which an expression consists, in postorder: the operands from left to right,
and then what stands above them. -/
def parts : TypedExpression → List TypedExpression
  | literal v => [literal v]
  | unary o e => e.parts ++ [unary o e]
  | binary l o r => l.parts ++ r.parts ++ [binary l o r]
  | parenthesized e => e.parts ++ [parenthesized e]

/-- The expression is a quotient or a remainder, of integers or of doubles. -/
def IsDivision : TypedExpression → Prop
  | binary _ o _ => o.operation = .division ∨ o.operation = .modulo
  | _ => False

/-- The expression is the quotient or the remainder of an integer by zero, as the fault says it: its
left operand comes to the dividend and its right operand to zero. -/
def DividesByZero (f : Fault) : TypedExpression → Prop
  | binary l o r => o.operation = f.division.operation ∧ o.result = .integer ∧
      l.evaluate = .ok (.integer f.dividend) ∧ r.evaluate = .ok (.integer 0)
  | _ => False

end TypedExpression

/-! ## Operators -/

variable {f g : Fault} {v w : Value}

theorem UnaryOperation.apply_ne_fault (o : UnaryOperation) (v : Value) (f : Fault) :
    o.apply v ≠ .error (.fault f) := by
  cases o <;> cases v <;> simp [apply]

theorem BinaryOperation.onIntegers_eq_fault_iff {o : BinaryOperation} {m n : Int32} :
    o.onIntegers m n = .error (.fault f) ↔
      o = f.division.operation ∧ m = f.dividend ∧ n = 0 := by
  obtain ⟨division, dividend⟩ := f
  cases o with
  | division => by_cases hn : n = 0 <;> cases division <;> simp [onIntegers, Division.operation, hn]
  | modulo => by_cases hn : n = 0 <;> cases division <;> simp [onIntegers, Division.operation, hn]
  | _ => cases division <;> simp [onIntegers, Division.operation]

theorem BinaryOperation.apply_eq_fault_iff {o : BinaryOperation} :
    o.apply v w = .error (.fault f) ↔
      o = f.division.operation ∧ v = .integer f.dividend ∧ w = .integer 0 := by
  have hmap {α : Type} (k : α → Value) (r : Except Failure α) :
      r.map k = .error (.fault f) ↔ r = .error (.fault f) := by
    cases r <;> simp [Except.map]
  cases v with
  | integer m =>
    cases w with
    | integer n =>
      rw [apply, hmap, onIntegers_eq_fault_iff]
      simp
    | _ => simp [apply]
  | double x =>
    cases w with
    | double y => cases o <;> simp [apply, hmap, onDoubles]
    | _ => simp [apply]
  | boolean a =>
    cases w with
    | boolean b => cases o <;> simp [apply, hmap, onBooleans]
    | _ => simp [apply]
  | _ => cases w <;> simp [apply]

namespace TypedExpression

variable {e l r p : TypedExpression}

/-! ## Parts that divide by zero -/

theorem DividesByZero.evaluate_eq (h : e.DividesByZero f) : e.evaluate = .error (.fault f) := by
  cases e with
  | binary l o r =>
    obtain ⟨ho, -, hl, hr⟩ := h
    rw [evaluate, hl, hr]
    exact BinaryOperation.apply_eq_fault_iff.mpr ⟨ho, rfl, rfl⟩
  | _ => exact h.elim

theorem DividesByZero.isDivision (h : e.DividesByZero f) : e.IsDivision := by
  cases e with
  | binary l o r =>
    obtain ⟨division, dividend⟩ := f
    cases division with
    | quotient => exact .inl h.1
    | remainder => exact .inr h.1
  | _ => exact h.elim

/-- A part that has no value keeps all that stands above it from having one. -/
theorem exists_evaluate_eq_of_mem_parts (hv : e.evaluate = .ok v) :
    ∀ p ∈ e.parts, ∃ w, p.evaluate = .ok w := by
  induction e generalizing v with
  | literal u =>
    rw [parts, List.forall_mem_singleton]
    exact ⟨v, hv⟩
  | unary o e ih =>
    rw [parts, List.forall_mem_append, List.forall_mem_singleton]
    refine ⟨?_, v, hv⟩
    cases he : e.evaluate with
    | error failure =>
      rw [evaluate, he] at hv
      cases hv
    | ok u => exact ih he
  | binary l o r ihl ihr =>
    rw [parts, List.forall_mem_append, List.forall_mem_append, List.forall_mem_singleton]
    refine ⟨?_, v, hv⟩
    cases hl : l.evaluate with
    | error failure =>
      rw [evaluate, hl] at hv
      cases hv
    | ok u =>
      cases hr : r.evaluate with
      | error failure =>
        rw [evaluate, hl, hr] at hv
        cases hv
      | ok w => exact ⟨ihl hl, ihr hr⟩
  | parenthesized e ih =>
    rw [parts, List.forall_mem_append, List.forall_mem_singleton]
    exact ⟨ih hv, v, hv⟩

/-! ## The first one -/

/-- One of the parts divides by zero as the fault says it, and all in front of it have values. -/
def FailsFirst (f : Fault) (parts : List TypedExpression) : Prop :=
  ∃ before p after, parts = before ++ p :: after ∧ p.DividesByZero f ∧
    ∀ q ∈ before, ∃ w, q.evaluate = .ok w

theorem FailsFirst.append_right {ps : List TypedExpression} (h : FailsFirst f ps)
    (qs : List TypedExpression) : FailsFirst f (ps ++ qs) := by
  obtain ⟨before, p, after, rfl, hp, hbefore⟩ := h
  exact ⟨before, p, after ++ qs, by simp, hp, hbefore⟩

theorem FailsFirst.append_left {ps qs : List TypedExpression} (h : FailsFirst f qs)
    (hps : ∀ q ∈ ps, ∃ w, q.evaluate = .ok w) : FailsFirst f (ps ++ qs) := by
  obtain ⟨before, p, after, rfl, hp, hbefore⟩ := h
  refine ⟨ps ++ before, p, after, by simp, hp, fun q hq => ?_⟩
  rcases List.mem_append.mp hq with hq | hq
  · exact hps q hq
  · exact hbefore q hq

theorem failsFirst_singleton (h : e.DividesByZero f) : FailsFirst f [e] :=
  ⟨[], e, [], rfl, h, fun _ hq => absurd hq List.not_mem_nil⟩

/-- **A fault is that of the first part that divides by zero**: in front of it all parts have
values. -/
theorem WellTyped.failsFirst (h : e.WellTyped) (hf : e.evaluate = .error (.fault f)) :
    FailsFirst f e.parts := by
  induction h with
  | literal v => cases hf
  | @unary o e _ _ _ ih =>
    refine FailsFirst.append_right ?_ _
    cases he : e.evaluate with
    | error failure =>
      rw [evaluate, he] at hf
      exact ih (he.trans hf)
    | ok v =>
      rw [evaluate, he] at hf
      exact absurd hf (o.operation.apply_ne_fault v f)
  | @binary l r o ho hwl hwr hleft hright ihl ihr =>
    cases hl : l.evaluate with
    | error failure =>
      rw [evaluate, hl] at hf
      exact ((ihl (hl.trans hf)).append_right _).append_right _
    | ok v =>
      have hlparts := exists_evaluate_eq_of_mem_parts hl
      cases hr : r.evaluate with
      | error failure =>
        rw [evaluate, hl, hr] at hf
        exact ((ihr (hr.trans hf)).append_left hlparts).append_right _
      | ok w =>
        rw [evaluate, hl, hr] at hf
        obtain ⟨hop, rfl, rfl⟩ := BinaryOperation.apply_eq_fault_iff.mp hf
        have hinteger : l.type = .integer := by
          have hyields := hwl.yields_evaluate
          rw [hl] at hyields
          exact hyields.symm
        have hresult : o.result = .integer := by
          rw [← (BinaryOverload.type_of_mem o ho).1, ← hleft, hinteger]
        refine FailsFirst.append_left (failsFirst_singleton ⟨hop, hresult, hl, hr⟩) ?_
        rw [List.forall_mem_append]
        exact ⟨hlparts, exists_evaluate_eq_of_mem_parts hr⟩
  | parenthesized _ ih => exact (ih hf).append_right _

theorem WellTyped.exists_evaluate_eq_iff (h : e.WellTyped) :
    (∃ v, e.evaluate = .ok v) ↔ ∀ p ∈ e.parts, ∀ f, ¬ p.DividesByZero f := by
  constructor
  · rintro ⟨v, hv⟩ p hp f hf
    obtain ⟨w, hw⟩ := exists_evaluate_eq_of_mem_parts hv p hp
    exact absurd (hw.symm.trans hf.evaluate_eq) nofun
  · intro hnone
    rcases yields_iff.mp h.yields_evaluate with ⟨v, hv, -⟩ | ⟨f, hf⟩
    · exact ⟨v, hv⟩
    · obtain ⟨before, p, after, hparts, hp, -⟩ := h.failsFirst hf
      have hmem : p ∈ e.parts := hparts ▸ List.mem_append_cons_self
      exact absurd hp (hnone p hmem f)

theorem WellTyped.evaluate_eq_fault_iff (h : e.WellTyped) : e.evaluate = .error (.fault f) ↔
    ∃ before p after, e.parts = before ++ p :: after ∧ p.DividesByZero f ∧
      ∀ q ∈ before, q.IsDivision → ∀ g, q.evaluate ≠ .error (.fault g) := by
  constructor
  · intro hf
    obtain ⟨before, p, after, hparts, hp, hbefore⟩ := h.failsFirst hf
    refine ⟨before, p, after, hparts, hp, fun q hq _ g hg => ?_⟩
    obtain ⟨w, hw⟩ := hbefore q hq
    exact absurd (hw.symm.trans hg) nofun
  · rintro ⟨before, p, after, hparts, hp, hbefore⟩
    have hmem : p ∈ e.parts := hparts ▸ List.mem_append_cons_self
    rcases yields_iff.mp h.yields_evaluate with ⟨v, hv, -⟩ | ⟨g, hg⟩
    · exact absurd hp (h.exists_evaluate_eq_iff.mp ⟨v, hv⟩ p hmem f)
    · -- the first part that fails and `p` stand in the same place
      obtain ⟨front, q, later, hparts', hq, hfront⟩ := h.failsFirst hg
      obtain ⟨-, hpq, -⟩ : before = front ∧ p = q ∧ after = later := by
        refine Text.append_cons_inj (hparts.symm.trans hparts') (fun hmem => ?_) fun hmem => ?_
        · obtain ⟨w, hw⟩ := hfront p hmem
          exact absurd (hw.symm.trans hp.evaluate_eq) nofun
        · exact hbefore q hmem hq.isDivision g hq.evaluate_eq
      rw [hg, ← hq.evaluate_eq, ← hpq, hp.evaluate_eq]

end TypedExpression

open TypedExpression

/-- **The fault that is reported is the first one.** Whatever typing makes of an expression, behind
any earlier notes and with any of its own, fails with a fault if and only if some part of it divides
this dividend by zero in this way, and no quotient or remainder in front of that part fails, where the
parts are counted in postorder. It has a value if and only if no part at all divides by zero, wherever
that part stands. -/
theorem evaluate_eq_fault_iff_first (e : Expression) (noted : Array Diagnostic) :
    (∀ f, (e.elaborate noted).1.evaluate = .error (.fault f) ↔
      ∃ before p after, (e.elaborate noted).1.parts = before ++ p :: after ∧ p.DividesByZero f ∧
        ∀ q ∈ before, q.IsDivision → ∀ g, q.evaluate ≠ .error (.fault g)) ∧
    ((∃ v, (e.elaborate noted).1.evaluate = .ok v) ↔
      ∀ p ∈ (e.elaborate noted).1.parts, ∀ f, ¬ p.DividesByZero f) := by
  have hwell := e.wellTyped_elaborate noted
  exact ⟨fun f => hwell.evaluate_eq_fault_iff, hwell.exists_evaluate_eq_iff⟩

/-- The remainder by zero on the left fails first, with the dividend that was computed; what stands on
the right is not looked at. -/
example :
    let ones (m n : Int32) : TypedExpression := .binary (.literal (.integer m))
      (.same .minus .subtraction .integer) (.literal (.integer n))
    let left := TypedExpression.binary (ones 7 9) (.same .percent .modulo .integer) (ones 1 1)
    let right := TypedExpression.binary (ones 1 0) (.same .slash .division .integer) (ones 0 0)
    (TypedExpression.binary left (.same .plus .addition .integer) right).evaluate =
      .error (.fault ⟨.remainder, -2⟩) :=
  rfl

end Reckoner
