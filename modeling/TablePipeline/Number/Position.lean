/-! # Exact positions of numbers

Integers and doubles are compared through the place they take on one line: minus infinity, the
finite numbers, plus infinity, and NaN above them all. A finite double is a whole number of units
of `2 ^ (-1074)`, and so is every integer, hence the comparison of two numbers is a comparison of
integers and never rounds. This module says nothing about arithmetic on doubles.
-/

namespace TablePipeline.Number

/-- The place of a number on the extended line. -/
inductive Position where
  | negInf
  /-- A finite number, counted in units of `2 ^ (-1074)`. -/
  | finite (units : Int)
  | posInf
  | nan
deriving DecidableEq, Repr

/-- The binary exponent of one unit, which is the smallest positive double. -/
def unitExponent : Nat := 1074

namespace Position

/-- The rank of the four regions, from below. -/
def region : Position → Nat
  | negInf => 0
  | finite _ => 1
  | posInf => 2
  | nan => 3

/-- The unit count inside the finite region, and zero in the others, which are single points. -/
def offset : Position → Int
  | finite units => units
  | _ => 0

/-- Positions are ordered by region, and by unit count inside the finite one. -/
def order (a b : Position) : Ordering :=
  (compare a.region b.region).then (compare a.offset b.offset)

end Position

/-- The signed value of a magnitude. -/
def signed (sign : Float.Model.UnpackedFloat.Sign) (magnitude : Nat) : Int :=
  match sign with
  | .positive => magnitude
  | .negative => -magnitude

/-- The exact place of a double; both zeros share one. -/
def ofFloat (value : Float) : Position :=
  match value.toModel.unpack with
  | .notANumber => .nan
  | .infinity .positive => .posInf
  | .infinity .negative => .negInf
  | .zero _ => .finite 0
  | .finite sign mantissa exponent _ =>
    .finite (signed sign (mantissa <<< (exponent + unitExponent).toNat))

/-- The exact place of an integer. -/
def ofInt (value : Int) : Position :=
  .finite (value <<< unitExponent)

/-- The number of units in one. -/
def one : Int :=
  1 <<< unitExponent

/-- The integer a double stands for, if it stands for one. -/
def exactInt? (value : Float) : Option Int :=
  match ofFloat value with
  | .finite units => if units % one = 0 then some (units / one) else none
  | _ => none

/-- The smallest and the largest 64-bit integer. -/
def minInt : Int := -9223372036854775808

@[inherit_doc minInt]
def maxInt : Int := 9223372036854775807

/-- A 64-bit integer, if the value fits one. -/
def int64? (value : Int) : Option Int64 :=
  if minInt ≤ value ∧ value ≤ maxInt then some (Int64.ofInt value) else none

/-- The 64-bit integer nearest to an integer. -/
def clampInt64 (value : Int) : Int64 :=
  Int64.ofInt (max minInt (min maxInt value))

/-- The double nearest to an integer, a tie going to the even neighbour. -/
def toFloat (value : Int64) : Float :=
  Float.ofInt value.toInt

/-- The 64-bit integer a double is cut to: the fraction is dropped, values out of range go to the
nearest end, and NaN to zero. -/
def truncate (value : Float) : Int64 :=
  match ofFloat value with
  | .finite units => clampInt64 (units.tdiv one)
  | .posInf => clampInt64 maxInt
  | .negInf => clampInt64 minInt
  | .nan => 0

/-- One representative for both zeros. A double holds a single NaN already. -/
def canonical (value : Float) : Float :=
  if value == 0.0 then 0.0 else value

end TablePipeline.Number
