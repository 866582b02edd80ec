import Reckoner.Evaluation

/-!
# Quotients and remainders

Integers of 32 bits are divided as integers without bounds are, cut off towards zero, but for one
quotient: that of `-2 ^ 31` by `-1` has no place among them and wraps around to `-2 ^ 31`. There the
product of quotient and divisor wraps around once more, so quotient, divisor and remainder make up
the dividend all the same.

* `QuotientRemainder`: what the quotient and the remainder of two integers are;
  `quotientRemainder`: the operations come to them.
* `TypedExpression.evaluate_binary`: an operator between expressions with integer values.
* **`quotient_and_remainder_agree`**: what quotients and remainders of expressions come to.
-/

namespace Reckoner

/-! ## Integers -/

/-- `q` is the quotient and `r` the remainder of `x` by `y`. -/
structure QuotientRemainder (x y q r : Int32) : Prop where
  /-- They make up the dividend, wrapped around. -/
  wrapped : q * y + r = x
  /-- The remainder is smaller than the divisor. -/
  natAbs_lt : r.toInt.natAbs < y.toInt.natAbs
  /-- The remainder has the sign of the dividend. -/
  sign : r.toInt = 0 ∨ r.toInt.sign = x.toInt.sign
  /-- Without bounds they make up the dividend as well, with one exception. -/
  exact_iff : q.toInt * y.toInt + r.toInt = x.toInt ↔ ¬ (x.toInt = -2147483648 ∧ y.toInt = -1)
  /-- The exception. -/
  least : x.toInt = -2147483648 ∧ y.toInt = -1 → q.toInt = -2147483648 ∧ r.toInt = 0

variable {x y : Int32}

/-- The only division of integers that overflows. -/
theorem least_division (h : x.toInt = -2147483648 ∧ y.toInt = -1) :
    (x / y).toInt = -2147483648 ∧ (x % y).toInt = 0 := by
  obtain rfl : x = Int32.minValue := Int32.toInt_inj.mp h.1
  obtain rfl : y = -1 := Int32.toInt_inj.mp h.2
  decide

theorem toInt_quotient (h : ¬ (x.toInt = -2147483648 ∧ y.toInt = -1)) :
    (x / y).toInt = x.toInt.tdiv y.toInt := by
  rcases Classical.not_and_iff_not_or_not.mp h with hx | hy
  · exact Int32.toInt_div_of_ne_left x y fun heq => hx (congrArg Int32.toInt heq)
  · exact Int32.toInt_div_of_ne_right x y fun heq => hy (congrArg Int32.toInt heq)

/-- **Quotient, divisor and remainder make up the dividend**, also where the quotient wraps around. -/
theorem quotient_mul_add_remainder (x y : Int32) : x / y * y + x % y = x := by
  have hx := x.toInt_lt
  have hx' := x.le_toInt
  have hy := y.toInt_lt
  have hy' := y.le_toInt
  have hmin : Int32.minValue.toInt = -2147483648 := rfl
  have hmax : Int32.maxValue.toInt = 2147483647 := rfl
  calc x / y * y + x % y
      = .ofInt (x.toInt.tdiv y.toInt * y.toInt + x.toInt.tmod y.toInt) := by
        rw [Int32.ofInt_add, Int32.ofInt_mul,
          Int32.ofInt_tdiv (by omega) (by omega) (by omega) (by omega),
          Int32.ofInt_tmod (by omega) (by omega) (by omega) (by omega), Int32.ofInt_toInt,
          Int32.ofInt_toInt]
    _ = x := by rw [Int.tdiv_mul_add_tmod, Int32.ofInt_toInt]

theorem quotientRemainder (hy : y ≠ 0) : QuotientRemainder x y (x / y) (x % y) where
  wrapped := quotient_mul_add_remainder x y
  natAbs_lt := by
    have hpos : 0 < y.toInt.natAbs :=
      Int.natAbs_pos.mpr fun h => hy (Int32.toInt_inj.mp h)
    rw [Int32.toInt_mod, Int.natAbs_tmod]
    exact Nat.mod_lt _ hpos
  sign := by
    rw [Int32.toInt_mod, Int.sign_tmod]
    by_cases hdvd : y.toInt ∣ x.toInt
    · exact .inl (Int.tmod_eq_zero_of_dvd hdvd)
    · exact .inr (if_neg hdvd)
  exact_iff := by
    constructor
    · rintro hexact h
      obtain ⟨hq, hr⟩ := least_division h
      rw [hq, hr, h.1, h.2] at hexact
      exact absurd hexact (by decide)
    · intro h
      rw [toInt_quotient h, Int32.toInt_mod]
      exact Int.tdiv_mul_add_tmod _ _
  least := least_division

/-! ## Expressions -/

namespace TypedExpression

variable {a b e f : TypedExpression} {o t p : BinaryOverload}

theorem evaluate_binary (ha : a.evaluate = .ok (.integer x))
    (hb : b.evaluate = .ok (.integer y)) :
    (binary a o b).evaluate = (o.operation.onIntegers x y).map .integer := by
  rw [evaluate, ha, hb]
  rfl

theorem evaluate_division (ha : a.evaluate = .ok (.integer x)) (hb : b.evaluate = .ok (.integer y))
    (hy : y ≠ 0) :
    (o.operation = .division → (binary a o b).evaluate = .ok (.integer (x / y))) ∧
      (o.operation = .modulo → (binary a o b).evaluate = .ok (.integer (x % y))) := by
  rw [evaluate_binary ha hb]
  constructor
  · intro ho
    rw [ho, BinaryOperation.onIntegers, if_neg hy]
    rfl
  · intro ho
    rw [ho, BinaryOperation.onIntegers, if_neg hy]
    rfl

theorem evaluate_recomposed (he : e.evaluate = .ok (.integer (x / y)))
    (hb : b.evaluate = .ok (.integer y)) (hf : f.evaluate = .ok (.integer (x % y)))
    (ht : t.operation = .multiplication) (hp : p.operation = .addition) :
    (binary (binary e t b) p f).evaluate = .ok (.integer x) := by
  have hproduct : (binary e t b).evaluate = .ok (.integer (x / y * y)) := by
    rw [evaluate_binary he hb, ht]
    rfl
  rw [evaluate_binary hproduct hf, hp, BinaryOperation.onIntegers, quotient_mul_add_remainder]
  rfl

end TypedExpression

open TypedExpression

/-- **Quotient and remainder agree for all operands.** Let two expressions come to integers, the
second one not to zero. Then their quotient and their remainder come to integers without a fault, and
these are what `QuotientRemainder` says. Hence the product of quotient and divisor, with the remainder
added to it, comes to the dividend, whether or not the quotient stands in parentheses. -/
theorem quotient_and_remainder_agree (a b : TypedExpression) (x y : Int32)
    (ha : a.evaluate = .ok (.integer x)) (hb : b.evaluate = .ok (.integer y)) (hy : y ≠ 0) :
    (∃ q r : Int32, QuotientRemainder x y q r ∧
      (∀ d : BinaryOverload, d.operation = .division →
        (binary a d b).evaluate = .ok (.integer q)) ∧
      ∀ m : BinaryOverload, m.operation = .modulo → (binary a m b).evaluate = .ok (.integer r)) ∧
    ∀ d m t p : BinaryOverload, d.operation = .division → m.operation = .modulo →
      t.operation = .multiplication → p.operation = .addition →
      (binary (binary (parenthesized (binary a d b)) t b) p (binary a m b)).evaluate =
        .ok (.integer x) ∧
      (binary (binary (binary a d b) t b) p (binary a m b)).evaluate = .ok (.integer x) := by
  refine ⟨⟨x / y, x % y, quotientRemainder hy, fun d hd => (evaluate_division ha hb hy).1 hd,
    fun m hm => (evaluate_division ha hb hy).2 hm⟩, fun d m t p hd hm ht hp => ?_⟩
  have hquotient := (evaluate_division ha hb hy).1 hd
  have hremainder := (evaluate_division ha hb hy).2 hm
  exact ⟨evaluate_recomposed hquotient hb hremainder ht hp,
    evaluate_recomposed hquotient hb hremainder ht hp⟩

/-- An expression that comes to `-1`. -/
def minusOne : TypedExpression :=
  .unary ⟨.minus, .negation, .integer, .integer⟩ (.literal (.integer 1))

/-- A difference that comes to the least integer. -/
def leastDifference : TypedExpression :=
  .binary (.literal (.integer (-2147483647))) (.same .minus .subtraction .integer)
    (.literal (.integer 1))

/-- The quotient that overflows. -/
theorem quotient_and_remainder_agree_least :
    (∃ q r : Int32, q.toInt = -2147483648 ∧ r.toInt = 0 ∧
      (binary leastDifference (.same .slash .division .integer) minusOne).evaluate =
        .ok (.integer q) ∧
      (binary leastDifference (.same .percent .modulo .integer) minusOne).evaluate =
        .ok (.integer r)) ∧
    (binary
      (binary (binary leastDifference (.same .slash .division .integer) minusOne)
        (.same .times .multiplication .integer) minusOne)
      (.same .plus .addition .integer)
      (binary leastDifference (.same .percent .modulo .integer) minusOne)).evaluate =
        .ok (.integer Int32.minValue) := by
  obtain ⟨⟨q, r, hqr, hquotient, hremainder⟩, hback⟩ :=
    quotient_and_remainder_agree leastDifference minusOne Int32.minValue (-1) rfl rfl (by decide)
  obtain ⟨hq, hr⟩ := hqr.least (by decide)
  exact ⟨⟨q, r, hq, hr, hquotient _ rfl, hremainder _ rfl⟩, (hback _ _ _ _ rfl rfl rfl rfl).2⟩

end Reckoner
