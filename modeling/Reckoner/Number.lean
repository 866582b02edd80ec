/-!
# Numbers

How whole numbers are written, and what is computed with doubles beyond what the machine does: the
remainder of a division and the shortest text. The 64 bits of a double are a sign, 11 bits of
exponent and 52 bits of fraction. They stand for `± mantissa * 2 ^ exponent`, an infinity or no
number.

* `Decimal.natural`, `Decimal.integer`: whole numbers in decimal, the most significant digit first and
  without leading zeros.
* `Double.read` takes the bits of a double apart, `Double.write` puts them together; both are exact.
* `Double.remainder`: the remainder of a division cut off towards zero.
* `Double.shortest`: the shortest digits that read back as a double.
* `Double.text`: these digits in positional notation.
-/

namespace Reckoner

/-! ## Whole numbers in decimal -/

namespace Decimal

/-- A natural number in decimal. -/
def natural (n : Nat) : String :=
  String.ofList (Nat.toDigits 10 n)

/-- An integer in decimal. -/
def integer : Int → String
  | .ofNat n => natural n
  | .negSucc n => "-" ++ natural (n + 1)

@[simp] theorem toList_natural (n : Nat) : (natural n).toList = Nat.toDigits 10 n :=
  String.toList_ofList

end Decimal

namespace Double

/-! ## The number behind a double -/

/-- The number `± mantissa * 2 ^ exponent`; zero has a sign too. -/
structure Finite where
  negative : Bool
  mantissa : Nat
  exponent : Int

/-- What a double stands for. -/
inductive Reading where
  | finite (number : Finite)
  | infinite (negative : Bool)
  | notANumber

/-- The least exponent, that of the numbers next to zero. -/
def leastExponent : Int := -1074

/-- The leading bit of a mantissa of 53 bits, which the fraction leaves out. -/
def leadingBit : Nat := 1 <<< 52

/-- The bit of the sign. -/
def signBit : Nat := 1 <<< 63

/-- What the bits of `x` stand for. -/
def read (x : Float) : Reading :=
  let bits := x.toBits.toNat
  let negative := decide (signBit ≤ bits)
  let scale : Nat := (bits >>> 52) % 0x800
  let fraction := bits % leadingBit
  if scale = 0x7ff then
    if fraction = 0 then .infinite negative else .notANumber
  else if scale = 0 then .finite ⟨negative, fraction, leastExponent⟩
  else .finite ⟨negative, leadingBit + fraction, leastExponent + (scale - 1)⟩

/-- The number of binary digits of `n`. -/
def bitLength (n : Nat) : Nat :=
  if n = 0 then 0 else n.log2 + 1

/-- The double that stands for `x`. Bits of the mantissa behind the 53 leading ones, or below the
least exponent, are cut off; a number that some double stands for has none. -/
def write (x : Finite) : Float :=
  let exponent := max (x.exponent + bitLength x.mantissa - 53) leastExponent
  let mantissa :=
    if exponent ≤ x.exponent then x.mantissa <<< (x.exponent - exponent).toNat
    else x.mantissa >>> (exponent - x.exponent).toNat
  let magnitude :=
    if mantissa < leadingBit then mantissa
    else (exponent - leastExponent).toNat * leadingBit + mantissa
  Float.ofBits (UInt64.ofNat ((if x.negative then signBit else 0) + magnitude))

/-! ## Remainders

The remainder of `x` by `y` is itself a double, so it is computed exactly: both numbers are brought to
the smaller of their exponents, where the remainder is one of natural numbers. -/

/-- What is left of `a` when `b`, which is not zero, is taken away as often as it fits. -/
def Finite.remainder (a b : Finite) : Finite :=
  let exponent := min a.exponent b.exponent
  { negative := a.negative
    mantissa :=
      (a.mantissa <<< (a.exponent - exponent).toNat) %
        (b.mantissa <<< (b.exponent - exponent).toNat)
    exponent }

/-- The result of a division that has none. -/
def undefined : Float := 0.0 / 0.0

/-- The remainder of `x` by `y`. Nothing is taken away from a number below an infinite `y`; by zero
and of an infinity there is no remainder. -/
def remainder (x y : Float) : Float :=
  match read x, read y with
  | .finite a, .finite b => if b.mantissa = 0 then undefined else write (a.remainder b)
  | .finite _, .infinite _ => x
  | _, _ => undefined

/-! ## The shortest digits

Many decimal numbers read back as one double. The shortest of them lies on the coarsest grid
`10 ^ k` that has a point in the interval of the reals that round to the double. Of the points of a
grid only the two around the double come into question. -/

/-- The number `digits * 10 ^ exponent`. -/
structure Digits where
  digits : Nat
  exponent : Int

/-- The lower end of the reals that round to `mantissa * 2 ^ exponent`, in quarters of the last
place. The double below a power of two is only half a place away. -/
def lowerEnd (mantissa : Nat) (exponent : Int) : Nat :=
  if mantissa = leadingBit ∧ leastExponent < exponent then 4 * mantissa - 1 else 4 * mantissa - 2

/-- The upper end of the same interval, in quarters of the last place. -/
def upperEnd (mantissa : Nat) : Nat :=
  4 * mantissa + 2

/-- The point of the grid `10 ^ k` nearest to `mantissa * 2 ^ exponent` among those that round to
it, if there are any. The ends of the interval belong to it for an even mantissa. -/
def onGrid? (mantissa : Nat) (exponent k : Int) : Option Nat :=
  let quarter := Nat.pow 10 (-k).toNat <<< (exponent - 2).toNat
  let unit := Nat.pow 10 k.toNat <<< (2 - exponent).toNat
  let inside (a b : Nat) : Bool := if mantissa % 2 = 0 then a ≤ b else a < b
  let below := 4 * mantissa * quarter / unit
  let above := below + 1
  let rest := 4 * mantissa * quarter % unit
  match inside (lowerEnd mantissa exponent * quarter) (below * unit),
      inside (above * unit) (upperEnd mantissa * quarter) with
  | true, true => some (if 2 * rest < unit then below else above)
  | true, false => some below
  | false, true => some above
  | false, false => none

/-- The first hit on the grids from `10 ^ k` downwards, at most `more` grids further on. -/
def firstHit (mantissa : Nat) (exponent k : Int) : Nat → Digits
  | 0 => ⟨(onGrid? mantissa exponent k).getD 0, k⟩
  | more + 1 =>
    match onGrid? mantissa exponent k with
    | some digits => ⟨digits, k⟩
    | none => firstHit mantissa exponent (k - 1) more

/-- A grid coarser than `mantissa * 2 ^ exponent`: the logarithm of two is below 0.30103. -/
def coarseGrid (mantissa : Nat) (exponent : Int) : Int :=
  (exponent + bitLength mantissa) * 30103 / 100000 + 1

/-- The shortest digits that read back as `mantissa * 2 ^ exponent`. Seventeen digits always do, so
twenty grids are enough. -/
def shortest (mantissa : Nat) (exponent : Int) : Digits :=
  firstHit mantissa exponent (coarseGrid mantissa exponent) 20

/-! ## Doubles as text -/

/-- As many zeros as `count` says. -/
def zeros (count : Nat) : String :=
  String.ofList (List.replicate count '0')

/-- The number `digits * 10 ^ exponent` in positional notation, with at least one digit on either
side of the point. -/
def positional (x : Digits) : String :=
  let figures := Decimal.natural x.digits
  if 0 ≤ x.exponent then figures ++ zeros x.exponent.toNat ++ ".0"
  else
    let places := (-x.exponent).toNat
    let padded := (zeros (places + 1 - figures.length) ++ figures).toList
    let whole := padded.length - places
    String.ofList (padded.take whole) ++ "." ++ String.ofList (padded.drop whole)

/-- The text of a double, without an exponent however far the point lies from its digits. A whole
number keeps one zero behind the point, and zero keeps its sign. -/
def text (x : Float) : String :=
  match read x with
  | .notANumber => "NaN"
  | .infinite negative => if negative then "-inf" else "inf"
  | .finite number =>
    let magnitude :=
      if number.mantissa = 0 then ⟨0, 0⟩ else shortest number.mantissa number.exponent
    (if number.negative then "-" else "") ++ positional magnitude

end Double

end Reckoner
