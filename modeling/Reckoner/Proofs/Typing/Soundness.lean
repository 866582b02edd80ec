import Reckoner.Analysis

/-!
# Soundness of typing

An expression whose operators are resolved never meets values for which an operator has no meaning.
What typing leaves behind is well typed also where operators were dropped, and a well typed
expression comes to a value of its type or to a division by zero.

* `WellTyped`: every operator is an overload that fits the types of its operands.
* `wellTyped_elaborate`: typing yields well typed expressions, with or without complaints.
* `WellTyped.yields_evaluate`: evaluation keeps types.
* **`elaborate_evaluate_sound`**: no expression and no line ends in a mismatch.
-/

namespace Reckoner

/-- An outcome at a type: a value of that type, or a division by zero. -/
def Yields (type : ValueType) : Except Failure Value → Prop
  | .ok v => v.type = type
  | .error (.fault _) => True
  | .error .mismatch => False

theorem yields_iff {type : ValueType} {r : Except Failure Value} :
    Yields type r ↔ (∃ v, r = .ok v ∧ v.type = type) ∨ ∃ f, r = .error (.fault f) := by
  rcases r with (f | _) | v <;> simp [Yields]

theorem Yields.ne_mismatch {type : ValueType} {r : Except Failure Value} (h : Yields type r) :
    r ≠ .error .mismatch := by
  rintro rfl
  exact h

theorem Yields.bind {type after : ValueType} {r : Except Failure Value}
    {next : Value → Except Failure Value} (hr : Yields type r)
    (hnext : ∀ v, v.type = type → Yields after (next v)) : Yields after (r >>= next) := by
  rcases r with (f | _) | v
  · exact trivial
  · exact hr.elim
  · exact hnext v hr

/-! ## Values of a type -/

theorem Value.exists_integer {v : Value} (h : v.type = .integer) : ∃ n, v = .integer n := by
  cases v with
  | integer n => exact ⟨n, rfl⟩
  | _ => cases h

theorem Value.exists_double {v : Value} (h : v.type = .double) : ∃ x, v = .double x := by
  cases v with
  | double x => exact ⟨x, rfl⟩
  | _ => cases h

theorem Value.exists_boolean {v : Value} (h : v.type = .boolean) : ∃ b, v = .boolean b := by
  cases v with
  | boolean b => exact ⟨b, rfl⟩
  | _ => cases h

/-! ## Overloads -/

theorem UnaryOverload.yields_apply {o : UnaryOverload} (ho : o ∈ all) {v : Value}
    (hv : v.type = o.operand) : Yields o.result (o.operation.apply v) := by
  simp only [all, List.mem_cons, List.not_mem_nil, or_false] at ho
  rcases ho with rfl | rfl | rfl | rfl | rfl | rfl | rfl | rfl | rfl
  all_goals cases v <;> first | rfl | cases hv

/-- Whether an operation is one of `&&` and `||`. -/
def BinaryOperation.isLogical : BinaryOperation → Bool
  | logicalAnd | logicalOr => true
  | _ => false

/-- What the table of binary operators holds: logic at booleans, arithmetic at the two kinds of
numbers, and the operands and the result of one type. -/
theorem BinaryOverload.type_of_mem : ∀ o ∈ all, o.left = o.result ∧ o.right = o.result ∧
    (o.operation.isLogical = true ∧ o.result = .boolean ∨
      o.operation.isLogical = false ∧ (o.result = .integer ∨ o.result = .double)) := by
  decide

theorem BinaryOperation.yields_onIntegers {o : BinaryOperation} (ho : o.isLogical = false)
    (m n : Int32) : Yields .integer ((o.onIntegers m n).map .integer) := by
  cases o with
  | division =>
    rw [onIntegers]
    split <;> trivial
  | modulo =>
    rw [onIntegers]
    split <;> trivial
  | logicalAnd => cases ho
  | logicalOr => cases ho
  | _ => rfl

theorem BinaryOperation.yields_onDoubles {o : BinaryOperation} (ho : o.isLogical = false)
    (x y : Float) : Yields .double ((o.onDoubles x y).map .double) := by
  cases o with
  | logicalAnd => cases ho
  | logicalOr => cases ho
  | _ => rfl

theorem BinaryOperation.yields_onBooleans {o : BinaryOperation} (ho : o.isLogical = true)
    (a b : Bool) : Yields .boolean ((o.onBooleans a b).map .boolean) := by
  cases o with
  | logicalAnd => rfl
  | logicalOr => rfl
  | _ => cases ho

theorem BinaryOverload.yields_apply {o : BinaryOverload} (ho : o ∈ all) {v w : Value}
    (hv : v.type = o.left) (hw : w.type = o.right) : Yields o.result (o.operation.apply v w) := by
  obtain ⟨hl, hr, ⟨hop, ht⟩ | ⟨hop, ht | ht⟩⟩ := type_of_mem o ho
  all_goals rw [hl, ht] at hv; rw [hr, ht] at hw; rw [ht]
  · obtain ⟨a, rfl⟩ := Value.exists_boolean hv
    obtain ⟨b, rfl⟩ := Value.exists_boolean hw
    exact BinaryOperation.yields_onBooleans hop a b
  · obtain ⟨m, rfl⟩ := Value.exists_integer hv
    obtain ⟨n, rfl⟩ := Value.exists_integer hw
    exact BinaryOperation.yields_onIntegers hop m n
  · obtain ⟨x, rfl⟩ := Value.exists_double hv
    obtain ⟨y, rfl⟩ := Value.exists_double hw
    exact BinaryOperation.yields_onDoubles hop x y

/-! ## Well typed expressions -/

/-- Every operator is an overload of the table, and the types of its operands are those at which
it is defined. -/
inductive TypedExpression.WellTyped : TypedExpression → Prop
  | literal (v : Value) : WellTyped (.literal v)
  | unary {o : UnaryOverload} {e : TypedExpression} (ho : o ∈ UnaryOverload.all)
      (he : e.WellTyped) (htype : e.type = o.operand) : WellTyped (.unary o e)
  | binary {l r : TypedExpression} {o : BinaryOverload} (ho : o ∈ BinaryOverload.all)
      (hl : l.WellTyped) (hr : r.WellTyped) (hleft : l.type = o.left) (hright : r.type = o.right) :
      WellTyped (.binary l o r)
  | parenthesized {e : TypedExpression} (he : e.WellTyped) : WellTyped (.parenthesized e)

/-- **Typing yields well typed expressions.** Where an operator has no overload, the operand that
takes its place is well typed already. -/
theorem Expression.wellTyped_elaborate (e : Expression) (noted : Array Diagnostic) :
    (e.elaborate noted).1.WellTyped := by
  induction e generalizing noted with
  | literal t => exact .literal _
  | unary op e ih =>
    rw [elaborate]
    split
    · next o ho =>
      obtain ⟨hmem, -, htype⟩ := UnaryOverload.find?_spec ho
      exact .unary hmem (ih noted) htype.symm
    · exact ih noted
  | binary l op r ihl ihr =>
    rw [elaborate]
    split
    · next o ho =>
      obtain ⟨hmem, -, hleft, hright⟩ := BinaryOverload.find?_spec ho
      exact .binary hmem (ihl noted) (ihr _) hleft.symm hright.symm
    · exact ihl noted
  | parenthesized o e c ih => exact .parenthesized (ih noted)

/-- **A well typed expression comes to a value of its type or to a division by zero.** -/
theorem TypedExpression.WellTyped.yields_evaluate {e : TypedExpression} (h : e.WellTyped) :
    Yields e.type e.evaluate := by
  induction h with
  | literal v => rfl
  | unary ho _ htype ih =>
    exact ih.bind fun v hv => UnaryOverload.yields_apply ho (hv.trans htype)
  | binary ho _ _ hleft hright ihl ihr =>
    exact ihl.bind fun v hv => ihr.bind fun w hw =>
      BinaryOverload.yields_apply ho (hv.trans hleft) (hw.trans hright)
  | parenthesized _ ih => exact ih

theorem Expression.yields_elaborate (e : Expression) (noted : Array Diagnostic) :
    Yields (e.elaborate noted).1.type (e.elaborate noted).1.evaluate :=
  (e.wellTyped_elaborate noted).yields_evaluate

theorem Analysis.yields_typed (line : String) :
    Yields (ofString line).typed.type (ofString line).typed.evaluate :=
  Expression.yields_elaborate _ _

theorem evaluate_ne_mismatch (line : String) : evaluate line ≠ .error .mismatch := by
  have h := (Analysis.yields_typed line).ne_mismatch
  rw [evaluate, Analysis.evaluate]
  split
  · cases hr : (Analysis.ofString line).typed.evaluate with
    | ok v => exact nofun
    | error f =>
      rw [hr] at h
      exact fun hf => h (by simpa [Except.map] using hf)
  · exact nofun

/-- **No expression and no line ends in a mismatch.** Whatever typing makes of an expression, after
any earlier complaints and with any of its own, comes to a value of its type or to a division by
zero; so does the typed form of every line, whether or not the line is to be evaluated. -/
theorem elaborate_evaluate_sound :
    (∀ (e : Expression) (noted : Array Diagnostic),
      (∃ v, (e.elaborate noted).1.evaluate = .ok v ∧ v.type = (e.elaborate noted).1.type) ∨
        ∃ f, (e.elaborate noted).1.evaluate = .error (.fault f)) ∧
    ∀ line : String,
      (Analysis.ofString line).typed.evaluate ≠ .error .mismatch ∧
        evaluate line ≠ .error .mismatch :=
  ⟨fun e noted => yields_iff.mp (e.yields_elaborate noted), fun line =>
    ⟨(Analysis.yields_typed line).ne_mismatch, evaluate_ne_mismatch line⟩⟩

end Reckoner
