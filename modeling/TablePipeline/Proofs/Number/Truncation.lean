import TablePipeline.Proofs.Number.Comparison

/-! # Integers and doubles, compared by parts

An integer and a double can be compared by parts. A double in the range of the integers has a whole
part that is one of them. Where the whole part is the integer, the sign of the fraction decides: it
is the difference of two doubles, and a difference keeps its sign when it is rounded. This gives the
order of the places.
-/

namespace TablePipeline.Number

open Float.Model (Format UnpackedFloat)
open Float.Model.UnpackedFloat (Sign)

/-! ## The whole part -/

/-- The whole part of a double, with the sign of the double. -/
def trunc (value : Float) : Float :=
  match value.toModel.unpack with
  | .finite sign mantissa exponent _ => .ofModel (.pack (UnpackedFloat.round .binary64 sign
      ((mantissa >>> (-exponent).toNat) <<< exponent.toNat) 0))
  | _ => value

theorem one_eq : one = ((2 ^ unitExponent : Nat) : Int) := by
  rw [one, Nat.shiftLeft_eq, one_mul]

theorem one_pos : 0 < one := by
  rw [one_eq]
  positivity

theorem ofInt_eq (value : Int) : ofInt value = .finite (value * one) := by
  rw [ofInt, one_eq, Int.shiftLeft_eq, Nat.cast_pow, Nat.cast_ofNat]

/-- No double has a greater exponent. -/
theorem exponent_le (bits : BitVec Format.binary64.numBits) {sign : Sign} {mantissa : Nat}
    {exponent : Int} {positive : 0 < mantissa}
    (unpacked : UnpackedFloat.unpack .binary64 bits = .finite sign mantissa exponent positive) :
    exponent ≤ 971 := by
  have bounded : (UnpackedFloat.unpackExponent bits).toNat < 2048 :=
    (UnpackedFloat.unpackExponent bits).isLt
  revert unpacked
  fun_cases UnpackedFloat.unpack Format.binary64 bits with
  | case1 | case2 | case3 => exact nofun
  | case4 _ _ _ _ _ _ isLeast =>
    intro same
    have least : (UnpackedFloat.unpackExponent bits).toNat = 0 := congrArg BitVec.toNat isLeast
    have isExponent : ((UnpackedFloat.unpackExponent bits).toNat : Int) - 1075 + 1 = exponent :=
      (UnpackedFloat.finite.inj same).2.2
    omega
  | case5 _ _ _ _ _ notLargest =>
    intro same
    have below : (UnpackedFloat.unpackExponent bits).toNat ≠ 2047 := fun full =>
      notLargest (BitVec.eq_of_toNat_eq full)
    have isExponent : ((UnpackedFloat.unpackExponent bits).toNat : Int) - 1075 = exponent :=
      (UnpackedFloat.finite.inj same).2.2
    omega

/-- The units of a whole part are those of whole ones. -/
theorem tdiv_one (sign : Sign) (mantissa : Nat) {exponent : Int} (least : -1074 ≤ exponent) :
    (signed sign (mantissa <<< (exponent + unitExponent).toNat)).tdiv one =
      signed sign ((mantissa >>> (-exponent).toNat) <<< exponent.toNat) := by
  have magnitude : mantissa <<< (exponent + unitExponent).toNat / 2 ^ unitExponent =
      (mantissa >>> (-exponent).toNat) <<< exponent.toNat := by
    rw [Nat.shiftLeft_eq, Nat.shiftLeft_eq, Nat.shiftRight_eq_div_pow]
    rcases Int.le_total 0 exponent with whole | fraction
    · obtain ⟨count, rfl⟩ := Int.eq_ofNat_of_zero_le whole
      rw [← Int.natCast_add, Int.toNat_natCast, Int.toNat_natCast, Int.toNat_neg_natCast, Nat.pow_add,
        ← Nat.mul_assoc, Nat.mul_div_cancel _ (Nat.two_pow_pos _), Nat.pow_zero, Nat.div_one]
    · obtain ⟨count, isCount⟩ := Int.eq_ofNat_of_zero_le (Int.neg_nonneg_of_nonpos fraction)
      have none : exponent.toNat = 0 := Int.toNat_of_nonpos fraction
      have split : unitExponent = (exponent + unitExponent).toNat + count := by
        simp only [unitExponent]
        omega
      rw [isCount, Int.toNat_natCast, none, Nat.pow_zero, Nat.mul_one]
      nth_rewrite 2 [split]
      rw [Nat.pow_add, Nat.mul_comm mantissa, Nat.mul_div_mul_left _ _ (Nat.two_pow_pos _)]
  rw [one_eq, ← magnitude]
  cases sign with
  | positive => exact (Int.ofNat_tdiv _ _).symm
  | negative => rw [signed, signed, Int.neg_tdiv, Int.ofNat_tdiv]

/-- The whole part of a finite double is an integer, and the fraction is cut. -/
theorem ofFloat_trunc {value : Float} {units : Int} (placed : ofFloat value = .finite units) :
    ofFloat (trunc value) = ofInt (units.tdiv one) := by
  have representable : Representable value.toModel.unpack := representable_unpack _
  rw [ofFloat_eq_place] at placed ⊢
  rw [trunc]
  cases unpacked : value.toModel.unpack with
  | notANumber =>
    rw [unpacked] at placed
    cases placed
  | infinity sign =>
    rw [unpacked] at placed
    cases sign <;> cases placed
  | zero sign =>
    rw [unpacked] at placed
    cases placed
    change place value.toModel.unpack = _
    rw [unpacked, Int.zero_tdiv, ofInt_eq, zero_mul]
    rfl
  | finite sign mantissa exponent positive =>
    rw [unpacked] at placed representable
    have bounded := exponent_le _ unpacked
    cases placed
    obtain ⟨_, short, least, _⟩ := representable
    rw [tdiv_one sign mantissa least]
    change place (Float.Model.pack (UnpackedFloat.round .binary64 sign _ 0)).unpack = _
    rcases Nat.eq_zero_or_pos (mantissa >>> (-exponent).toNat) with zero | some
    · rw [zero, Nat.zero_shiftLeft]
      cases sign <;> rfl
    · have cut : mantissa >>> (-exponent).toNat < 2 * leastMantissa :=
        Nat.lt_of_le_of_lt (Nat.shiftRight_le _ _) short
      rw [Nat.shiftLeft_eq]
      exact place_round sign some cut (by omega)

/-! ## The fraction -/

/-- The whole part of a number in a range is in the range. -/
theorem tdiv_range {units : Int} (least : minInt * one ≤ units) (most : units < (maxInt + 1) * one) :
    minInt ≤ units.tdiv one ∧ units.tdiv one ≤ maxInt := by
  rcases Int.le_total 0 units with positive | negative
  · rw [Int.tdiv_eq_ediv_of_nonneg positive]
    exact ⟨le_trans (by decide) (Int.ediv_nonneg positive one_pos.le),
      Int.lt_add_one_iff.mp (Int.ediv_lt_of_lt_mul one_pos most)⟩
  · obtain ⟨opposite, rfl⟩ : ∃ opposite, units = -opposite := ⟨-units, (Int.neg_neg _).symm⟩
    have positive : 0 ≤ opposite := by omega
    rw [Int.neg_tdiv, Int.tdiv_eq_ediv_of_nonneg positive]
    have bounded : opposite / one ≤ -minInt := by
      refine Int.ediv_le_of_le_mul one_pos ?_
      rw [neg_mul]
      omega
    have none : 0 ≤ opposite / one := Int.ediv_nonneg positive one_pos.le
    simp only [minInt, maxInt] at *
    omega

/-- A double is less than one apart from its whole part. -/
theorem tdiv_bounds (units : Int) :
    units.tdiv one * one - one < units ∧ units < units.tdiv one * one + one := by
  have parts := Int.tdiv_mul_add_tmod units one
  have below := Int.tmod_lt_of_pos units one_pos
  have above := Int.lt_tmod_of_pos units one_pos
  generalize units.tdiv one * one = cut at *
  omega

theorem zero_lt_iff {value : Float} : 0.0 < value ↔ side value.toModel.unpack = some .gt := by
  have zero : (0.0 : Float).toModel.unpack = .zero .positive := rfl
  rw [lt_iff, zero]
  cases value.toModel.unpack with
  | notANumber => decide
  | infinity sign => cases sign <;> decide
  | zero sign => cases sign <;> decide
  | finite sign => cases sign <;> simp [UnpackedFloat.lt, UnpackedFloat.compare, side]

theorem lt_zero_iff {value : Float} : value < 0.0 ↔ side value.toModel.unpack = some .lt := by
  have zero : (0.0 : Float).toModel.unpack = .zero .positive := rfl
  rw [lt_iff, zero, UnpackedFloat.lt, beq_iff_eq, side]

/-- The order of a fraction and zero, the other way around. -/
def behindPoint (fraction : Float) : Ordering :=
  if 0.0 < fraction then .lt else if fraction < 0.0 then .gt else .eq

/-- The fraction tells on which side of its whole part a double is. -/
theorem behindPoint_sub {value : Float} {units : Int} (placed : ofFloat value = .finite units) :
    behindPoint (value - trunc value) = compare (units.tdiv one * one) units := by
  have whole := ofFloat_trunc placed
  rw [ofInt_eq] at whole
  have difference : side (value - trunc value).toModel.unpack =
      some (compare units (units.tdiv one * one)) :=
    side_of_sub (representable_unpack _) (representable_unpack _) placed whole
  unfold behindPoint
  rcases lt_trichotomy units (units.tdiv one * one) with less | same | more
  · rw [compare_lt_iff_lt.mpr less] at difference
    have notPositive : ¬ 0.0 < value - trunc value := by
      rw [zero_lt_iff, difference]
      decide
    rw [if_neg notPositive, if_pos (lt_zero_iff.mpr difference), compare_gt_iff_gt.mpr less]
  · rw [← same, compare_eq_iff_eq.mpr rfl] at difference ⊢
    have notPositive : ¬ 0.0 < value - trunc value := by
      rw [zero_lt_iff, difference]
      decide
    have notNegative : ¬ value - trunc value < 0.0 := by
      rw [lt_zero_iff, difference]
      decide
    rw [if_neg notPositive, if_neg notNegative]
  · rw [compare_gt_iff_gt.mpr more] at difference
    rw [if_pos (zero_lt_iff.mpr difference), compare_lt_iff_lt.mpr more]

/-! ## The order -/

/-- The least double above all 64-bit integers. -/
def int64Bound : Float := 9223372036854775808.0

/-- The order of an integer and a double, by parts. -/
def orderByParts (value : Int64) (other : Float) : Ordering :=
  if other.isNaN ∨ int64Bound ≤ other then .lt
  else if other < -int64Bound then .gt
  else (compare value.toInt (truncate (trunc other)).toInt).then (behindPoint (other - trunc other))

theorem ofFloat_int64Bound : ofFloat int64Bound = ofInt (2 ^ 63) := by
  decide +kernel

theorem ofFloat_neg_int64Bound : ofFloat (-int64Bound) = ofInt (-2 ^ 63) := by
  decide +kernel

section Numbers

variable {value other : Float} (number : value.toModel.unpack ≠ .notANumber)
  (number' : other.toModel.unpack ≠ .notANumber)

include number number'

/-- Doubles that are numbers are compared as their places are. -/
theorem compare_unpack : value.toModel.unpack.compare other.toModel.unpack =
    some ((ofFloat value).order (ofFloat other)) :=
  compare_eq_order (representable_unpack _) (representable_unpack _) number number'

theorem le_iff_order : value ≤ other ↔ ((ofFloat value).order (ofFloat other)).isLE = true := by
  rw [le_iff, UnpackedFloat.le, compare_unpack number number']
  rfl

theorem lt_iff_order : value < other ↔ (ofFloat value).order (ofFloat other) = .lt := by
  rw [lt_iff, UnpackedFloat.lt, compare_unpack number number', beq_iff_eq, Option.some.injEq]

end Numbers

/-- A double in the range of the integers is cut to its whole part. -/
theorem toInt_truncate {value : Float} {whole : Int} (placed : ofFloat value = ofInt whole)
    (least : minInt ≤ whole) (most : whole ≤ maxInt) : (truncate value).toInt = whole := by
  rw [ofInt_eq] at placed
  rw [truncate, placed]
  change (clampInt64 ((whole * one).tdiv one)).toInt = whole
  rw [Int.mul_tdiv_cancel _ one_pos.ne', clampInt64, Int.min_eq_right most, Int.max_eq_right least]
  exact Int64.toInt_ofInt_of_le least (Int.lt_of_le_of_lt most (by decide))

theorem isNaN_iff {value : Float} : value.isNaN = true ↔ value.toModel.unpack = .notANumber := by
  rw [Float.isNaN_eq_decide_eq_nan, decide_eq_true_iff]
  constructor
  · rintro rfl
    rfl
  · exact fun nan => unpack_injective nan

theorem ofFloat_eq_nan {value : Float} :
    ofFloat value = .nan ↔ value.toModel.unpack = .notANumber := by
  rw [ofFloat_eq_place]
  cases value.toModel.unpack with
  | notANumber => exact iff_of_true rfl rfl
  | infinity sign => cases sign <;> exact iff_of_false nofun nofun
  | zero | finite => exact iff_of_false nofun nofun

theorem order_ofInt_finite (value units : Int) :
    (ofInt value).order (.finite units) = compare (value * one) units := by
  rw [ofInt_eq]
  rfl

/-- An integer is ordered beside a whole part, and where they are the same, beside what is behind it. -/
theorem compare_parts (value units : Int) :
    (compare value (units.tdiv one)).then (compare (units.tdiv one * one) units) =
      compare (value * one) units := by
  obtain ⟨above, below⟩ := tdiv_bounds units
  generalize units.tdiv one = whole at *
  rcases lt_trichotomy value whole with less | rfl | more
  · have apart : (value + 1) * one ≤ whole * one := Int.mul_le_mul_of_nonneg_right less one_pos.le
    rw [add_mul, one_mul] at apart
    have smaller : value * one < units := by omega
    rw [compare_lt_iff_lt.mpr less, compare_lt_iff_lt.mpr smaller]
    rfl
  · rw [compare_eq_iff_eq.mpr rfl]
    rfl
  · have apart : (whole + 1) * one ≤ value * one := Int.mul_le_mul_of_nonneg_right more one_pos.le
    rw [add_mul, one_mul] at apart
    have greater : units < value * one := by omega
    rw [compare_gt_iff_gt.mpr more, compare_gt_iff_gt.mpr greater]
    rfl

section Bounds

variable {other : Float} (number : other.toModel.unpack ≠ .notANumber)

include number

theorem int64Bound_le_iff :
    int64Bound ≤ other ↔ ((ofInt (2 ^ 63)).order (ofFloat other)).isLE = true := by
  have bound : int64Bound.toModel.unpack ≠ .notANumber := by
    rw [Ne, ← isNaN_iff]
    decide +kernel
  rw [← ofFloat_int64Bound]
  exact le_iff_order bound number

theorem lt_neg_int64Bound_iff :
    other < -int64Bound ↔ (ofInt (-2 ^ 63)).order (ofFloat other) = .gt := by
  have bound : (-int64Bound).toModel.unpack ≠ .notANumber := by
    rw [Ne, ← isNaN_iff]
    decide +kernel
  rw [← ofFloat_neg_int64Bound, ← Position.swap_order, Ordering.swap_eq_gt]
  exact lt_iff_order number bound

/-- An integer and a finite double are ordered by their parts as they are by their places. -/
theorem orderByParts_finite (value : Int64) {units : Int} (placed : ofFloat other = .finite units) :
    orderByParts value other = compare (value.toInt * one) units := by
  have aboveIff := int64Bound_le_iff number
  have belowIff := lt_neg_int64Bound_iff number
  rw [placed, order_ofInt_finite] at aboveIff belowIff
  unfold orderByParts
  rcases lt_or_ge units (2 ^ 63 * one) with bounded | above
  · have notAbove : ¬ (other.isNaN = true ∨ int64Bound ≤ other) := by
      rw [isNaN_iff, aboveIff, compare_gt_iff_gt.mpr bounded, not_or]
      exact ⟨number, nofun⟩
    rw [if_neg notAbove]
    rcases lt_or_ge units (-2 ^ 63 * one) with below | reached
    · have greater : units < value.toInt * one :=
        below.trans_le (Int.mul_le_mul_of_nonneg_right value.le_toInt one_pos.le)
      rw [if_pos (belowIff.mpr (compare_gt_iff_gt.mpr below)), compare_gt_iff_gt.mpr greater]
    · have notBelow : ¬ other < -int64Bound := by
        rw [belowIff, compare_gt_iff_gt]
        exact reached.not_gt
      obtain ⟨least, most⟩ := tdiv_range reached bounded
      rw [if_neg notBelow, behindPoint_sub placed, toInt_truncate (ofFloat_trunc placed) least most,
        compare_parts]
  · have smaller : value.toInt * one < units :=
      (Int.mul_lt_mul_of_pos_right value.toInt_lt one_pos).trans_le above
    have atLeast : (compare (2 ^ 63 * one) units).isLE = true := by
      rw [Ordering.isLE_iff_ne_gt, compare_gt_iff_gt]
      exact above.not_gt
    rw [if_pos (.inr (aboveIff.mpr atLeast)), compare_lt_iff_lt.mpr smaller]

end Bounds

/-- An integer and a double are ordered by their parts as they are by their places. -/
theorem orderByParts_eq (value : Int64) (other : Float) :
    orderByParts value other = (ofInt value.toInt).order (ofFloat other) := by
  by_cases nan : other.toModel.unpack = .notANumber
  · rw [orderByParts, if_pos (.inl (isNaN_iff.mpr nan)), ofFloat_eq_nan.mpr nan]
    rfl
  have aboveIff := int64Bound_le_iff nan
  have belowIff := lt_neg_int64Bound_iff nan
  cases placed : ofFloat other with
  | nan => exact absurd (ofFloat_eq_nan.mp placed) nan
  | negInf =>
    rw [placed] at aboveIff belowIff
    have notAbove : ¬ (other.isNaN = true ∨ int64Bound ≤ other) := by
      rw [isNaN_iff, aboveIff, not_or]
      exact ⟨nan, nofun⟩
    rw [orderByParts, if_neg notAbove, if_pos (belowIff.mpr rfl)]
    rfl
  | posInf =>
    rw [placed] at aboveIff
    rw [orderByParts, if_pos (.inr (aboveIff.mpr rfl))]
    rfl
  | finite units => rw [orderByParts_finite nan value placed, order_ofInt_finite]

end TablePipeline.Number
