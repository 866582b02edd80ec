import Mathlib.Data.Int.ModEq
import Reckoner.Proofs.Typing.Decision

/-!
# Integers with and without bounds

Integers of 32 bits wrap around, and sums, differences and products do not mind: in whatever order the
parts of an expression overflow, it comes to its exact value modulo `2 ^ 32`. Quotients and remainders
do mind, but where all parts of an expression have exact values of 32 bits, it comes to its own.

* `Expression.exactValue?`: the value of an expression in integers without bounds.
* `UnaryOverload.exists_exact`, `BinaryOverload.exists_exact`: each operator keeps values congruent.
* `Expression.exists_resolves`: so an expression comes to its exact value, wrapped around, if its
  quotients and remainders are those of integers of 32 bits.
* **`integers_computed_exactly`**: this holds without quotients, and where nothing overflows.
-/

namespace Reckoner

namespace TokenKind

/-- What a unary operator makes of an integer without bounds. -/
def exactUnary? : TokenKind → Int → Option Int
  | plus, n => some n
  | minus, n => some (-n)
  | sqrWord, n => some (n * n)
  | _, _ => none

/-- What a binary operator makes of two integers without bounds. A quotient is cut off towards zero,
and a remainder has the sign of the dividend; by zero there are none. -/
def exactBinary? : TokenKind → Int → Int → Option Int
  | plus, m, n => some (m + n)
  | minus, m, n => some (m - n)
  | times, m, n => some (m * n)
  | slash, m, n => if n = 0 then none else some (m.tdiv n)
  | percent, m, n => if n = 0 then none else some (m.tmod n)
  | _, _, _ => none

/-- Whether the operator is that of a quotient or a remainder. -/
def isDivision : TokenKind → Bool
  | slash | percent => true
  | _ => false

end TokenKind

namespace Expression

/-- The value of an expression over integers in integers without bounds, if it has one. -/
def exactValue? : Expression → Option Int
  | literal t =>
    match t.denoted with
    | .integer n => some n.toInt
    | _ => none
  | unary op e => e.exactValue?.bind op.kind.exactUnary?
  | binary l op r => l.exactValue?.bind fun m => r.exactValue?.bind (op.kind.exactBinary? m)
  | parenthesized _ e _ => e.exactValue?

/-- The expression is made of integers by sums, differences, products, signs and squares. -/
def isPolynomial : Expression → Bool
  | literal t => t.denoted.type = .integer
  | unary op e => op.kind ∈ [.plus, .minus, .sqrWord] && e.isPolynomial
  | binary l op r => op.kind ∈ [.plus, .minus, .times] && (l.isPolynomial && r.isPolynomial)
  | parenthesized _ e _ => e.isPolynomial

/-- The expression has an exact value, which is an integer of 32 bits. -/
def IsSmall (e : Expression) : Prop :=
  ∃ n ∈ e.exactValue?, -2147483648 ≤ n ∧ n < 2147483648

instance (e : Expression) : Decidable e.IsSmall :=
  inferInstanceAs (Decidable (∃ n ∈ e.exactValue?, -2147483648 ≤ n ∧ n < 2147483648))

/-- The operands of all quotients and remainders have exact values of 32 bits. -/
def DividesSmall : Expression → Prop
  | literal _ => True
  | unary _ e => e.DividesSmall
  | binary l op r =>
    l.DividesSmall ∧ r.DividesSmall ∧ (op.kind.isDivision = true → l.IsSmall ∧ r.IsSmall)
  | parenthesized _ e _ => e.DividesSmall

end Expression

/-! ## Operators -/

variable {k : TokenKind} {m n q : Int} {e : Expression}

theorem toInt_ofInt_of_small (h : -2147483648 ≤ n ∧ n < 2147483648) : (Int32.ofInt n).toInt = n :=
  Int32.toInt_ofInt_of_le h.1 h.2

theorem UnaryOverload.exists_exact (h : k.exactUnary? n = some q) :
    ∃ o ∈ all, o.token = k ∧ o.operand = .integer ∧ o.result = .integer ∧
      o.operation.apply (.integer (.ofInt n)) = .ok (.integer (.ofInt q)) := by
  cases k with
  | plus =>
    obtain rfl : n = q := Option.some.inj h
    exact ⟨⟨.plus, .identity, .integer, .integer⟩, by decide, rfl, rfl, rfl, rfl⟩
  | minus =>
    obtain rfl : -n = q := Option.some.inj h
    refine ⟨⟨.minus, .negation, .integer, .integer⟩, by decide, rfl, rfl, rfl, ?_⟩
    rw [UnaryOperation.apply, Int32.ofInt_neg]
  | sqrWord =>
    obtain rfl : n * n = q := Option.some.inj h
    refine ⟨⟨.sqrWord, .square, .integer, .integer⟩, by decide, rfl, rfl, rfl, ?_⟩
    rw [UnaryOperation.apply, Int32.ofInt_mul]
  | _ => simp [TokenKind.exactUnary?] at h

/-- The quotient and the remainder of integers of 32 bits, none of which is zero, are the exact ones,
wrapped around. -/
theorem onIntegers_division (hm : -2147483648 ≤ m ∧ m < 2147483648)
    (hn : -2147483648 ≤ n ∧ n < 2147483648) (hzero : n ≠ 0) :
    BinaryOperation.division.onIntegers (.ofInt m) (.ofInt n) = .ok (.ofInt (m.tdiv n)) ∧
      BinaryOperation.modulo.onIntegers (.ofInt m) (.ofInt n) = .ok (.ofInt (m.tmod n)) := by
  have hne : Int32.ofInt n ≠ 0 := by
    intro h
    have hint := congrArg Int32.toInt h
    rw [toInt_ofInt_of_small hn] at hint
    exact hzero hint
  have hmin : Int32.minValue.toInt = -2147483648 := rfl
  have hmax : Int32.maxValue.toInt = 2147483647 := rfl
  rw [BinaryOperation.onIntegers, BinaryOperation.onIntegers, if_neg hne, if_neg hne,
    Int32.ofInt_tdiv (by omega) (by omega) (by omega) (by omega),
    Int32.ofInt_tmod (by omega) (by omega) (by omega) (by omega)]
  exact ⟨rfl, rfl⟩

/-- **A binary operator keeps values congruent**, a quotient or remainder those of 32 bits. -/
theorem BinaryOverload.exists_exact (h : k.exactBinary? m n = some q)
    (hsmall : k.isDivision = true →
      (-2147483648 ≤ m ∧ m < 2147483648) ∧ -2147483648 ≤ n ∧ n < 2147483648) :
    ∃ o ∈ all, o.token = k ∧ o.left = .integer ∧ o.right = .integer ∧ o.result = .integer ∧
      o.operation.apply (.integer (.ofInt m)) (.integer (.ofInt n)) =
        .ok (.integer (.ofInt q)) := by
  cases k with
  | plus =>
    obtain rfl : m + n = q := Option.some.inj h
    refine ⟨same .plus .addition .integer, by decide, rfl, rfl, rfl, rfl, ?_⟩
    rw [Int32.ofInt_add]
    rfl
  | minus =>
    obtain rfl : m - n = q := Option.some.inj h
    refine ⟨same .minus .subtraction .integer, by decide, rfl, rfl, rfl, rfl, ?_⟩
    rw [Int32.ofInt_sub]
    rfl
  | times =>
    obtain rfl : m * n = q := Option.some.inj h
    refine ⟨same .times .multiplication .integer, by decide, rfl, rfl, rfl, rfl, ?_⟩
    rw [Int32.ofInt_mul]
    rfl
  | slash =>
    obtain ⟨hm, hn⟩ := hsmall rfl
    obtain ⟨hzero, rfl⟩ : n ≠ 0 ∧ m.tdiv n = q := by simpa [TokenKind.exactBinary?] using h
    refine ⟨same .slash .division .integer, by decide, rfl, rfl, rfl, rfl, ?_⟩
    rw [same, BinaryOperation.apply, (onIntegers_division hm hn hzero).1]
    rfl
  | percent =>
    obtain ⟨hm, hn⟩ := hsmall rfl
    obtain ⟨hzero, rfl⟩ : n ≠ 0 ∧ m.tmod n = q := by simpa [TokenKind.exactBinary?] using h
    refine ⟨same .percent .modulo .integer, by decide, rfl, rfl, rfl, rfl, ?_⟩
    rw [same, BinaryOperation.apply, (onIntegers_division hm hn hzero).2]
    rfl
  | _ => simp [TokenKind.exactBinary?] at h

/-! ## Expressions -/

namespace Expression

/-- **An expression comes to its exact value, wrapped around**, if its quotients and remainders are
those of integers of 32 bits. -/
theorem exists_resolves (hd : e.DividesSmall) (hn : e.exactValue? = some n) :
    ∃ typed, e.Resolves typed ∧ typed.type = .integer ∧
      typed.evaluate = .ok (.integer (.ofInt n)) := by
  induction e generalizing n with
  | literal t =>
    rw [exactValue?] at hn
    split at hn
    · next i hi =>
      obtain rfl : i.toInt = n := Option.some.inj hn
      have hliteral := Resolves.literal t
      rw [hi] at hliteral
      exact ⟨_, hliteral, rfl, by rw [Int32.ofInt_toInt]; rfl⟩
    · cases hn
  | unary op e ih =>
    obtain ⟨i, hi, hop⟩ := Option.bind_eq_some_iff.mp hn
    obtain ⟨typed, hresolves, htype, hvalue⟩ := ih hd hi
    obtain ⟨o, ho, htoken, hoperand, hresult, happly⟩ := UnaryOverload.exists_exact hop
    refine ⟨_, hresolves.unary ho htoken (hoperand.trans htype.symm), hresult, ?_⟩
    rw [TypedExpression.evaluate, hvalue]
    exact happly
  | binary l op r ihl ihr =>
    obtain ⟨i, hi, hbind⟩ := Option.bind_eq_some_iff.mp hn
    obtain ⟨j, hj, hop⟩ := Option.bind_eq_some_iff.mp hbind
    obtain ⟨hl, hr, hsmall⟩ := hd
    obtain ⟨left, hleft, hltype, hlvalue⟩ := ihl hl hi
    obtain ⟨right, hright, hrtype, hrvalue⟩ := ihr hr hj
    have hoperands : op.kind.isDivision = true →
        (-2147483648 ≤ i ∧ i < 2147483648) ∧ -2147483648 ≤ j ∧ j < 2147483648 := by
      intro hdivision
      obtain ⟨⟨i', hi', hib⟩, j', hj', hjb⟩ := hsmall hdivision
      obtain rfl : i = i' := Option.some.inj (hi.symm.trans hi')
      obtain rfl : j = j' := Option.some.inj (hj.symm.trans hj')
      exact ⟨hib, hjb⟩
    obtain ⟨o, ho, htoken, hol, hor, hresult, happly⟩ := BinaryOverload.exists_exact hop hoperands
    refine ⟨_, hleft.binary hright ho htoken (hol.trans hltype.symm) (hor.trans hrtype.symm),
      hresult, ?_⟩
    rw [TypedExpression.evaluate, hlvalue, hrvalue]
    exact happly
  | parenthesized o e c ih =>
    obtain ⟨typed, hresolves, htype, hvalue⟩ := ih hd hn
    exact ⟨_, hresolves.parenthesized, htype, hvalue⟩

theorem evaluate_of_exact (hd : e.DividesSmall) (hn : e.exactValue? = some n)
    (noted : Array Diagnostic) : (e.elaborate noted).2 = noted ∧
      (e.elaborate noted).1.evaluate = .ok (.integer (.ofInt n)) := by
  obtain ⟨typed, hresolves, -, hvalue⟩ := exists_resolves hd hn
  rw [hresolves.elaborate_eq]
  exact ⟨rfl, hvalue⟩

theorem exists_exact_of_isPolynomial (h : e.isPolynomial = true) :
    ∃ n, e.exactValue? = some n ∧ e.DividesSmall := by
  induction e with
  | literal t =>
    obtain ⟨i, hi⟩ := Value.exists_integer (of_decide_eq_true h)
    exact ⟨i.toInt, by rw [exactValue?, hi], trivial⟩
  | unary op e ih =>
    obtain ⟨hop, he⟩ := Bool.and_eq_true_iff.mp h
    obtain ⟨n, hn, hd⟩ := ih he
    have hk : op.kind = .plus ∨ op.kind = .minus ∨ op.kind = .sqrWord := by simpa using hop
    rcases hk with hk | hk | hk
    all_goals exact ⟨_, by rw [exactValue?, hn, hk]; rfl, hd⟩
  | binary l op r ihl ihr =>
    obtain ⟨hop, hlr⟩ := Bool.and_eq_true_iff.mp h
    obtain ⟨hl, hr⟩ := Bool.and_eq_true_iff.mp hlr
    obtain ⟨m, hm, hdl⟩ := ihl hl
    obtain ⟨n, hn, hdr⟩ := ihr hr
    have hk : op.kind = .plus ∨ op.kind = .minus ∨ op.kind = .times := by simpa using hop
    rcases hk with hk | hk | hk
    all_goals
      refine ⟨_, by rw [exactValue?, hm, hn, hk]; rfl, hdl, hdr, fun hdivision => ?_⟩
      rw [hk] at hdivision
      cases hdivision
  | parenthesized o e c ih => exact ih h

theorem dividesSmall_of_parts (h : ∀ f ∈ e.parts, f.IsSmall) : e.DividesSmall := by
  induction e with
  | literal t => exact trivial
  | unary op e ih =>
    rw [parts, List.forall_mem_append] at h
    exact ih h.1
  | binary l op r ihl ihr =>
    rw [parts, List.forall_mem_append, List.forall_mem_append] at h
    obtain ⟨⟨hl, hr⟩, -⟩ := h
    exact ⟨ihl hl, ihr hr, fun _ => ⟨hl l l.self_mem_parts, hr r r.self_mem_parts⟩⟩
  | parenthesized o e c ih =>
    rw [parts, List.forall_mem_append] at h
    exact ih h.1

end Expression

open Expression

/-- **Expressions over integers are computed in the ring of integers of 32 bits, and exactly where
nothing overflows.** Behind any notes, typing adds none to an expression that is made of integers by
sums, differences, products, signs and squares, and what it yields comes to an integer of 32 bits
congruent to the exact value, however many parts overflow. If there are quotients and remainders as
well, but each part has an exact value, which takes a divisor other than zero, and this value has 32
bits, then the expression comes to its exact value. -/
theorem integers_computed_exactly (e : Expression) (noted : Array Diagnostic) :
    (e.isPolynomial = true → ∃ n v, e.exactValue? = some n ∧ (e.elaborate noted).2 = noted ∧
      (e.elaborate noted).1.evaluate = .ok (.integer v) ∧
      -2147483648 ≤ v.toInt ∧ v.toInt < 2147483648 ∧ v.toInt ≡ n [ZMOD 4294967296]) ∧
    ((∀ f ∈ e.parts, f.IsSmall) → ∃ v, (e.elaborate noted).2 = noted ∧
      (e.elaborate noted).1.evaluate = .ok (.integer v) ∧ e.exactValue? = some v.toInt) := by
  constructor
  · intro h
    obtain ⟨n, hn, hd⟩ := exists_exact_of_isPolynomial h
    obtain ⟨hquiet, hvalue⟩ := evaluate_of_exact hd hn noted
    refine ⟨n, .ofInt n, hn, hquiet, hvalue, Int32.le_toInt _, Int32.toInt_lt _, ?_⟩
    rw [Int32.toInt_ofInt]
    exact Int.bmod_emod
  · intro h
    obtain ⟨n, hn, hsmall⟩ := h e e.self_mem_parts
    obtain ⟨hquiet, hvalue⟩ := evaluate_of_exact (dividesSmall_of_parts h) hn noted
    refine ⟨.ofInt n, hquiet, hvalue, ?_⟩
    rw [toInt_ofInt_of_small hsmall]
    exact hn

/-- The square of `-2 ^ 31` comes to zero, which is its exact value modulo `2 ^ 32`; and the remainder
of `-2 ^ 31` by `-1` is exact although the quotient is not. -/
theorem integers_computed_exactly_least :
    (∃ n v, (ParsedLine.ofString "sqr (2147483647 + 1) - 3").root.exactValue? = some n ∧
      ((ParsedLine.ofString "sqr (2147483647 + 1) - 3").root.elaborate #[]).1.evaluate =
        .ok (.integer v) ∧ v.toInt ≡ n [ZMOD 4294967296]) ∧
    ∃ v, ((ParsedLine.ofString "(-2147483647 - 1) % -1 + -7 / 2").root.elaborate #[]).1.evaluate =
        .ok (.integer v) ∧
      (ParsedLine.ofString "(-2147483647 - 1) % -1 + -7 / 2").root.exactValue? = some v.toInt := by
  constructor
  · obtain ⟨n, v, hn, -, hv, -, -, hmod⟩ := (integers_computed_exactly
      (ParsedLine.ofString "sqr (2147483647 + 1) - 3").root #[]).1 (by decide +kernel)
    exact ⟨n, v, hn, hv, hmod⟩
  · obtain ⟨v, -, hv, hexact⟩ := (integers_computed_exactly
      (ParsedLine.ofString "(-2147483647 - 1) % -1 + -7 / 2").root #[]).2 (by decide +kernel)
    exact ⟨v, hv, hexact⟩

end Reckoner
