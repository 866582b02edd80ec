import Reckoner.Proofs.Typing.Soundness

/-!
# Operands that need not be evaluated

Both operands of `&&` and `||` are evaluated, also where the left one decides. Nobody can tell: an
operand of these operators is of type BOOLEAN, and typing leaves nothing below this type that could
fail, since no operator takes numbers to truth values.

* `TypedExpression.evaluateLazily`: evaluation that leaves out what does not matter.
* `TypedExpression.WellTyped.exists_evaluate_eq_boolean`: truth values are computed without faults.
* `TypedExpression.WellTyped.evaluateLazily_eq`: so nothing is lost if an operand is left out.
* **`evaluate_eq_evaluateLazily`**: this holds of all that typing yields.
-/

namespace Reckoner

/-- What an operation comes to whatever its right operand is: `&&` at `false`, and `||` at `true`. -/
def BinaryOperation.decided? : BinaryOperation → Value → Option Value
  | logicalAnd, .boolean false => some (.boolean false)
  | logicalOr, .boolean true => some (.boolean true)
  | _, _ => none

/-- The value of an expression, or the first failure from left to right, if a right operand is left
out where the left one decides. -/
def TypedExpression.evaluateLazily : TypedExpression → Except Failure Value
  | literal v => .ok v
  | unary o e => do
    let operand ← e.evaluateLazily
    o.operation.apply operand
  | binary l o r => do
    let left ← l.evaluateLazily
    match o.operation.decided? left with
    | some v => .ok v
    | none =>
      let right ← r.evaluateLazily
      o.operation.apply left right
  | parenthesized e => e.evaluateLazily

/-! ## Operators on truth values -/

theorem UnaryOverload.boolean_of_mem : ∀ o ∈ all, o.result = .boolean →
    o.operation = .logicalNegation ∧ o.operand = .boolean := by
  decide

/-- The binary operators that yield truth values are those of logic, and they take truth values. -/
theorem BinaryOverload.boolean_iff_of_mem : ∀ o ∈ all,
    (o.operation.isLogical = true ↔ o.result = .boolean) ∧
      (o.result = .boolean → o.left = .boolean ∧ o.right = .boolean) := by
  decide

theorem BinaryOperation.exists_apply_boolean {o : BinaryOperation} (ho : o.isLogical = true)
    (a b : Bool) : ∃ c, o.apply (.boolean a) (.boolean b) = .ok (.boolean c) := by
  cases o with
  | logicalAnd => exact ⟨a && b, rfl⟩
  | logicalOr => exact ⟨a || b, rfl⟩
  | _ => cases ho

theorem BinaryOperation.isLogical_of_decided? {o : BinaryOperation} {v w : Value}
    (h : o.decided? v = some w) : o.isLogical = true := by
  cases o with
  | logicalAnd => rfl
  | logicalOr => rfl
  | _ => cases h

theorem BinaryOperation.apply_of_decided? {o : BinaryOperation} {v w : Value}
    (h : o.decided? v = some w) (b : Bool) : o.apply v (.boolean b) = .ok w := by
  unfold decided? at h
  split at h
  · obtain rfl := Option.some.inj h
    rfl
  · obtain rfl := Option.some.inj h
    rfl
  · cases h

namespace TypedExpression

variable {e : TypedExpression}

/-! ## Expressions of type BOOLEAN -/

theorem WellTyped.exists_evaluate_eq_boolean (h : e.WellTyped) (htype : e.type = .boolean) :
    ∃ b, e.evaluate = .ok (.boolean b) := by
  induction h with
  | literal v =>
    obtain ⟨b, rfl⟩ := Value.exists_boolean htype
    exact ⟨b, rfl⟩
  | @unary o e ho _ hoperand ih =>
    obtain ⟨hnot, hboolean⟩ := UnaryOverload.boolean_of_mem o ho htype
    obtain ⟨b, hb⟩ := ih (hoperand.trans hboolean)
    refine ⟨!b, ?_⟩
    rw [evaluate, hb, hnot]
    rfl
  | @binary l r o ho _ _ hl hr ihl ihr =>
    -- only operators of logic yield truth values, and those do not fail at truth values
    obtain ⟨hlogic, hoperands⟩ := BinaryOverload.boolean_iff_of_mem o ho
    obtain ⟨hleft, hright⟩ := hoperands htype
    obtain ⟨a, ha⟩ := ihl (hl.trans hleft)
    obtain ⟨b, hb⟩ := ihr (hr.trans hright)
    obtain ⟨c, hc⟩ := BinaryOperation.exists_apply_boolean (hlogic.mpr htype) a b
    refine ⟨c, ?_⟩
    rw [evaluate, ha, hb]
    exact hc
  | parenthesized _ ih => exact ih htype

/-- **Nothing is lost if an operand is left out**: where the left operand decides, the right one has a
truth value, and any one will do. -/
theorem WellTyped.evaluateLazily_eq (h : e.WellTyped) : e.evaluateLazily = e.evaluate := by
  induction h with
  | literal v => rfl
  | unary _ _ _ ih => rw [evaluateLazily, evaluate, ih]
  | @binary l r o ho _ hwell _ hr ihl ihr =>
    rw [evaluateLazily, evaluate, ihl]
    cases l.evaluate with
    | error f => rfl
    | ok v =>
      cases hd : o.operation.decided? v with
      | none =>
        simp only [bind, Except.bind, hd]
        rw [ihr]
      | some w =>
        obtain ⟨hlogic, hoperands⟩ := BinaryOverload.boolean_iff_of_mem o ho
        have hboolean := hlogic.mp (BinaryOperation.isLogical_of_decided? hd)
        obtain ⟨b, hb⟩ := hwell.exists_evaluate_eq_boolean (hr.trans (hoperands hboolean).2)
        simp only [bind, Except.bind, hd, hb]
        exact (BinaryOperation.apply_of_decided? hd b).symm
  | parenthesized _ ih => rw [evaluateLazily, evaluate, ih]

end TypedExpression

/-- **No one can tell whether operands are left out.** Whatever typing makes of an expression, behind
any earlier notes and with any of its own, comes to the same value or fault whether or not the right
operands of `&&` and `||` are evaluated where the left ones decide; and if it is of type BOOLEAN, it
comes to a truth value. -/
theorem evaluate_eq_evaluateLazily (e : Expression) (noted : Array Diagnostic) :
    (e.elaborate noted).1.evaluate = (e.elaborate noted).1.evaluateLazily ∧
    ((e.elaborate noted).1.type = .boolean →
      ∃ b, (e.elaborate noted).1.evaluate = .ok (.boolean b)) := by
  have hwell := e.wellTyped_elaborate noted
  exact ⟨hwell.evaluateLazily_eq.symm, fun htype => hwell.exists_evaluate_eq_boolean htype⟩

/-- One of the two operators `&&` is left out for its left operand, and with it the division by zero;
the other one is resolved, and its left operand decides. -/
theorem evaluate_eq_evaluateLazily_recovered :
    (Analysis.ofString "false && !(true && 1 / 0)").diagnostics =
      #[⟨⟨16, 2⟩, .undefinedBinary "&&" .boolean .integer⟩] ∧
    (Analysis.ofString "false && !(true && 1 / 0)").typed.type = .boolean ∧
    ∃ b, (Analysis.ofString "false && !(true && 1 / 0)").typed.evaluateLazily =
      .ok (.boolean b) := by
  have htype : (Analysis.ofString "false && !(true && 1 / 0)").typed.type = .boolean := by
    decide +kernel
  obtain ⟨hlazy, hboolean⟩ := evaluate_eq_evaluateLazily
    (ParsedLine.ofString "false && !(true && 1 / 0)").root
    (ParsedLine.ofString "false && !(true && 1 / 0)").diagnostics
  obtain ⟨b, hb⟩ := hboolean htype
  exact ⟨by decide +kernel, htype, b, hlazy.symm.trans hb⟩

/-- Typing is what keeps faults away: put together by hand, the two evaluations differ. -/
example :
    let quotient : TypedExpression := .binary (.literal (.integer 1))
      (.same .slash .division .integer) (.literal (.integer 0))
    let both : TypedExpression :=
      .binary (.literal (.boolean false)) (.same .and .logicalAnd .boolean) quotient
    both.evaluate = .error (.fault ⟨.quotient, 1⟩) ∧ both.evaluateLazily = .ok (.boolean false) :=
  ⟨rfl, rfl⟩

end Reckoner
