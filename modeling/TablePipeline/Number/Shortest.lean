/-! # The fewest digits that read back

A positive double is the number `mantissa * 2 ^ exponent`, and every real between the midpoints to
its two neighbours rounds to it. `shortest` is the decimal of fewest digits in that interval and,
among those, the one nearest to the double. It is found by testing, for one digit, two digits and
so on, the two neighbours of the exact value on the decimal grid of that many digits; all
comparisons are between natural numbers. Seventeen digits always suffice.
-/

namespace TablePipeline.Number

/-- The number `digits * 10 ^ exponent`. -/
structure Decimal where
  digits : Nat
  exponent : Int
deriving DecidableEq, Repr

/-- A positive fraction, not necessarily in lowest terms. -/
structure Fraction where
  numerator : Nat
  denominator : Nat

namespace Fraction

/-- The fraction `value * base ^ exponent`. -/
def scale (value : Fraction) (base : Nat) (exponent : Int) : Fraction :=
  if 0 ≤ exponent then ⟨value.numerator * base.pow exponent.toNat, value.denominator⟩
  else ⟨value.numerator, value.denominator * base.pow (-exponent).toNat⟩

/-- The largest integer that is not above the fraction. -/
def floor (value : Fraction) : Nat :=
  value.numerator / value.denominator

/-- The greatest `p` with `10 ^ p` not above a positive fraction. -/
def decade (value : Fraction) : Int :=
  if value.denominator ≤ value.numerator then
    (Nat.toDigits 10 value.floor).length - 1
  else
    -(Nat.toDigits 10 ((value.denominator - 1) / value.numerator)).length

end Fraction

/-- The reals that round to one double, as three numerators over a common power of two. -/
structure RoundingInterval where
  lower : Nat
  value : Nat
  upper : Nat
  /-- All three count units of `2 ^ exponent`. -/
  exponent : Int
  /-- Do the two ends belong to the interval? -/
  closed : Bool

/-- The least mantissa of a double that is not among the smallest. -/
def leastMantissa : Nat := 4503599627370496

/-- The rounding interval of a positive double. The neighbour below is half as far away when the
mantissa is the least of its binade, unless the double is among the smallest. -/
def RoundingInterval.ofDouble (mantissa : Nat) (exponent : Int) : RoundingInterval where
  lower :=
    if mantissa = leastMantissa ∧ -1074 < exponent then 4 * mantissa - 1 else 4 * mantissa - 2
  value := 4 * mantissa
  upper := 4 * mantissa + 2
  exponent := exponent - 2
  closed := mantissa % 2 = 0

namespace RoundingInterval

/-- Does the decimal lie in the interval? -/
def contains (interval : RoundingInterval) (decimal : Decimal) : Bool :=
  let point :=
    (Fraction.mk decimal.digits 1).scale 10 decimal.exponent |>.scale 2 (-interval.exponent)
  let above := interval.lower * point.denominator
  let below := interval.upper * point.denominator
  if interval.closed then above ≤ point.numerator ∧ point.numerator ≤ below
  else above < point.numerator ∧ point.numerator < below

/-- The exact value of the double. -/
def fraction (interval : RoundingInterval) : Fraction :=
  (Fraction.mk interval.value 1).scale 2 interval.exponent

/-- The nearer of the value's two neighbours on the grid `10 ^ exponent` that lie in the interval.
Halfway between them it is the one above. -/
def onGrid? (interval : RoundingInterval) (exponent : Int) : Option Decimal :=
  let scaled := interval.fraction.scale 10 (-exponent)
  let below : Decimal := ⟨scaled.floor, exponent⟩
  let above : Decimal := ⟨scaled.floor + 1, exponent⟩
  match interval.contains below, interval.contains above with
  | true, true =>
    if 2 * (scaled.numerator % scaled.denominator) < scaled.denominator then some below
    else some above
  | true, false => some below
  | false, true => some above
  | false, false => none

end RoundingInterval

/-- The decimal of fewest digits that rounds to the positive double `mantissa * 2 ^ exponent`, and
the nearest to it among those. -/
def shortest (mantissa : Nat) (exponent : Int) : Decimal :=
  let interval := RoundingInterval.ofDouble mantissa exponent
  let decade := interval.fraction.decade
  let grids := (List.range 17).map fun (count : Nat) => decade - (count : Int)
  (grids.findSome? interval.onGrid?).getD ⟨0, 0⟩

end TablePipeline.Number
