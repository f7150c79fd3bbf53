import TablePipeline.Proofs.Number.Places

/-! # What rounding gives

A number that is rounded to a double is shifted until its mantissa has fifty-three bits, or fewer at
the least exponent, and is then cut. A positive number gives a positive double: the cut leaves the
first bit. If only zeros are cut, the double stands for the number itself.
-/

namespace TablePipeline.Number

open Float.Model (Format UnpackedFloat totalExponent)
open Float.Model.UnpackedFloat

variable {mantissa other : Nat} {exponent : Int} {sign : Sign}

/-! ## Shifts -/

theorem leastMantissa_eq : leastMantissa = 2 ^ 52 := rfl

theorem targetExponent_eq (total : Int) :
    Format.binary64.targetExponent total = max (total - 53) (-1074) :=
  rfl

/-- A number has its first bit at one place, however it is written. -/
theorem totalExponent_mul (positive : 0 < mantissa) (exponent : Int) (count : Nat) :
    totalExponent (mantissa * 2 ^ count) exponent = totalExponent mantissa (exponent + count) := by
  have bits : (mantissa * 2 ^ count).log2 = mantissa.log2 + count := by
    induction count with
    | zero => simp
    | succ count ih =>
      have nonzero : mantissa * 2 ^ count ≠ 0 :=
        (Nat.mul_pos positive (Nat.two_pow_pos _)).ne'
      rw [Nat.pow_succ', Nat.mul_left_comm, Nat.log2_two_mul nonzero, ih, Nat.add_assoc]
  rw [totalExponent, totalExponent, bits]
  omega

theorem mantissa_shiftRight (extended : ExtendedMantissa) (count : Nat) :
    (extended >>> count).mantissa = extended.mantissa / 2 ^ count := by
  induction count with
  | zero => simp [HShiftRight.hShiftRight, Nat.repeat]
  | succ count ih =>
    change (extended >>> count).mantissa / 2 = _
    rw [ih, Nat.div_div_eq_div_mul, Nat.pow_succ]

/-- Where only zeros are cut, nothing is left of them. -/
theorem shiftRight_exact (mantissa count : Nat) :
    ExtendedMantissa.mk (mantissa * 2 ^ count) false false >>> count =
      ⟨mantissa, false, false⟩ := by
  induction count generalizing mantissa with
  | zero => simp [HShiftRight.hShiftRight, Nat.repeat]
  | succ count ih =>
    rw [Nat.pow_succ', ← Nat.mul_assoc]
    change (ExtendedMantissa.mk (mantissa * 2 * 2 ^ count) false false >>> count).shiftRightOne = _
    rw [ih]
    simp [ExtendedMantissa.shiftRightOne]

/-- The least exponent at which a mantissa is not too long is that of a double. -/
theorem Normal.targetExponent (normal : Normal mantissa exponent) :
    Format.binary64.targetExponent (totalExponent mantissa exponent) = exponent := by
  obtain ⟨positive, bounded, least, small⟩ := normal
  have short : mantissa.log2 ≤ 52 :=
    Nat.le_of_lt_succ ((Nat.log2_lt positive.ne').mpr bounded)
  rw [targetExponent_eq, totalExponent]
  rcases Nat.lt_or_ge mantissa leastMantissa with isSmall | full
  · have := small isSmall
    omega
  · have long : 52 ≤ mantissa.log2 := (Nat.le_log2 positive.ne').mpr full
    omega

theorem Normal.shiftToTargetExponent (normal : Normal mantissa exponent) :
    shiftToTargetExponent .binary64 mantissa exponent .exact =
      (⟨mantissa, false, false⟩, exponent) := by
  unfold UnpackedFloat.shiftToTargetExponent shiftToExponent
  simp [normal.targetExponent, HShiftRight.hShiftRight, Nat.repeat,
    ExtendedMantissa.ofMantissaAndAccuracy]

/-- A mantissa that is shifted to its target is that of a double. -/
theorem normal_shifted (positive : 0 < mantissa) (least : -1074 ≤ exponent)
    (below : exponent ≤ Format.binary64.targetExponent (totalExponent mantissa exponent)) :
    Normal (mantissa / 2 ^ (Format.binary64.targetExponent (totalExponent mantissa exponent) -
      exponent).toNat) (Format.binary64.targetExponent (totalExponent mantissa exponent)) := by
  rw [targetExponent_eq, totalExponent] at below ⊢
  have lower := Nat.log2_self_le positive.ne'
  have upper := Nat.lt_log2_self (n := mantissa)
  generalize mantissa.log2 = bits at *
  rcases Nat.lt_or_ge bits 53 with short | long
  · -- such a mantissa is not shifted
    have here : max ((bits : Int) + 1 + exponent - 53) (-1074) = exponent := by omega
    rw [here, Int.sub_self, Int.toNat_zero, Nat.pow_zero, Nat.div_one]
    have bounded : 2 ^ (bits + 1) ≤ 2 ^ 53 := Nat.pow_le_pow_right (by decide) short
    refine ⟨positive, Nat.lt_of_lt_of_le upper bounded, least, fun small => ?_⟩
    have few : bits < 52 := (Nat.pow_lt_pow_iff_right (by decide)).mp (lower.trans_lt small)
    omega
  · have here : max ((bits : Int) + 1 + exponent - 53) (-1074) =
        exponent + ((bits - 52 : Nat) : Int) := by omega
    rw [here, add_sub_cancel_left, Int.toNat_natCast]
    have full : leastMantissa ≤ mantissa / 2 ^ (bits - 52) := by
      rw [Nat.le_div_iff_mul_le (Nat.two_pow_pos _), leastMantissa_eq, ← Nat.pow_add]
      rwa [show 52 + (bits - 52) = bits by omega]
    have bounded : mantissa / 2 ^ (bits - 52) < 2 * leastMantissa := by
      rw [Nat.div_lt_iff_lt_mul (Nat.two_pow_pos _), leastMantissa_eq, ← Nat.pow_succ',
        ← Nat.pow_add]
      rwa [show 53 + (bits - 52) = bits + 1 by omega]
    exact ⟨Nat.lt_of_lt_of_le (by decide) full, bounded, by omega, fun small => by omega⟩

/-! ## Rounding -/

theorem le_roundedMantissa (extended : ExtendedMantissa) :
    extended.mantissa ≤ extended.roundedMantissa ∧
      extended.roundedMantissa ≤ extended.mantissa + 1 := by
  obtain ⟨mantissa, roundBit, stickyBit⟩ := extended
  cases roundBit <;> cases stickyBit <;>
    simp only [ExtendedMantissa.roundedMantissa, ExtendedMantissa.accuracy,
      Accuracy.roundToNearestEven] <;> omega

theorem roundWithAccuracy_eq (sign : Sign) {first second : ExtendedMantissa} {target last : Int}
    (shifted : shiftToTargetExponent .binary64 mantissa exponent .exact = (first, target))
    (again : shiftToTargetExponent .binary64 first.roundedMantissa target .exact = (second, last))
    (positive : 0 < second.mantissa) :
    roundWithAccuracy .binary64 sign mantissa exponent .exact =
      .finite sign second.mantissa last positive := by
  simp only [roundWithAccuracy, shifted, again]
  rw [dif_neg positive.ne']

/-- A mantissa that is rounded up to a power of two has one bit too many, which is zero. -/
theorem shiftToTargetExponent_carry (least : -1074 ≤ exponent) :
    shiftToTargetExponent .binary64 (2 * leastMantissa) exponent .exact =
      (⟨leastMantissa, false, false⟩, exponent + 1) := by
  have further : Format.binary64.targetExponent (totalExponent (2 * leastMantissa) exponent) =
      exponent + 1 := by
    have long : (2 * leastMantissa).log2 = 53 := by decide +kernel
    rw [targetExponent_eq, totalExponent, long]
    omega
  have one : (exponent + 1 - exponent).toNat = 1 := by omega
  unfold shiftToTargetExponent shiftToExponent
  simp only [further, one, ExtendedMantissa.ofMantissaAndAccuracy]
  rw [Nat.mul_comm, ← pow_one 2, shiftRight_exact]
  rfl

/-- A positive mantissa at or below its target is rounded to one of a double. -/
theorem exists_roundWithAccuracy (sign : Sign) (positive : 0 < mantissa) (least : -1074 ≤ exponent)
    (below : exponent ≤ Format.binary64.targetExponent (totalExponent mantissa exponent)) :
    ∃ rounded target, ∃ normal : Normal rounded target,
      roundWithAccuracy .binary64 sign mantissa exponent .exact =
        .finite sign rounded target normal.positive := by
  have cut := normal_shifted positive least below
  obtain ⟨first, target, shifted, isFirst⟩ : ∃ first target,
      shiftToTargetExponent .binary64 mantissa exponent .exact = (first, target) ∧
        Normal first.mantissa target := by
    refine ⟨_, _, rfl, ?_⟩
    rw [mantissa_shiftRight, Int.toNat_of_nonneg (by omega), add_sub_cancel]
    exact cut
  obtain ⟨atLeast, atMost⟩ := le_roundedMantissa first
  obtain ⟨_, bounded, reached, small⟩ := isFirst
  rcases Nat.lt_or_ge first.roundedMantissa (2 * leastMantissa) with short | carried
  · have normal : Normal first.roundedMantissa target :=
      ⟨by omega, short, reached, fun isSmall => small (by omega)⟩
    exact ⟨_, _, normal, roundWithAccuracy_eq sign shifted normal.shiftToTargetExponent
      normal.positive⟩
  · have full : first.roundedMantissa = 2 * leastMantissa := by omega
    have normal : Normal leastMantissa (target + 1) :=
      ⟨by decide, by decide, by omega, fun isSmall => absurd isSmall (Nat.lt_irrefl _)⟩
    have again := shiftToTargetExponent_carry reached
    rw [← full] at again
    exact ⟨_, _, normal, roundWithAccuracy_eq sign shifted again normal.positive⟩

/-- A positive number is rounded to a positive double, and keeps its sign. -/
theorem exists_round (sign : Sign) (positive : 0 < mantissa) (least : -1074 ≤ exponent) :
    ∃ rounded target, ∃ normal : Normal rounded target,
      UnpackedFloat.round .binary64 sign mantissa exponent =
        .finite sign rounded target normal.positive := by
  unfold UnpackedFloat.round decreaseExponent
  refine exists_roundWithAccuracy sign ?_ ?_ ?_
  · rw [Nat.shiftLeft_eq]
    exact Nat.mul_pos positive (Nat.two_pow_pos _)
  · rw [targetExponent_eq]
    omega
  · rw [Nat.shiftLeft_eq, totalExponent_mul positive, Int.sub_add_cancel, targetExponent_eq]
    omega

/-- Nothing is lost where only zeros are cut. -/
theorem roundWithAccuracy_exact (sign : Sign) (normal : Normal mantissa exponent) (count : Nat) :
    roundWithAccuracy .binary64 sign (mantissa * 2 ^ count) (exponent - count) .exact =
      .finite sign mantissa exponent normal.positive := by
  have shifted : shiftToTargetExponent .binary64 (mantissa * 2 ^ count) (exponent - count) .exact =
      (⟨mantissa, false, false⟩, exponent) := by
    have same : (exponent - (exponent - count)).toNat = count := by omega
    unfold shiftToTargetExponent shiftToExponent
    rw [totalExponent_mul normal.positive, Int.sub_add_cancel, normal.targetExponent]
    simp only [same, ExtendedMantissa.ofMantissaAndAccuracy, shiftRight_exact, Int.sub_add_cancel]
  exact roundWithAccuracy_eq sign shifted normal.shiftToTargetExponent normal.positive

/-- A double that is written with more zeros is rounded to itself. -/
theorem round_mul (sign : Sign) (normal : Normal mantissa exponent) (count : Nat) :
    UnpackedFloat.round .binary64 sign (mantissa * 2 ^ count) (exponent - count) =
      .finite sign mantissa exponent normal.positive := by
  have same : (exponent - count - exponent).toNat = 0 := by omega
  rw [UnpackedFloat.round, totalExponent_mul normal.positive, Int.sub_add_cancel,
    normal.targetExponent]
  simp only [decreaseExponent, same, Nat.shiftLeft_zero, Int.natCast_zero, Int.sub_zero]
  exact roundWithAccuracy_exact sign normal count

/-- A double that is written with fewer zeros is rounded to itself. -/
theorem round_div (sign : Sign) {count : Nat} (normal : Normal (mantissa * 2 ^ count) exponent) :
    UnpackedFloat.round .binary64 sign mantissa (exponent + count) =
      .finite sign (mantissa * 2 ^ count) exponent normal.positive := by
  have positive : 0 < mantissa := Nat.pos_of_mul_pos_right normal.positive
  have same : (exponent + count - exponent).toNat = count := by omega
  have back := roundWithAccuracy_exact sign normal 0
  rw [UnpackedFloat.round, ← totalExponent_mul positive, normal.targetExponent]
  simp only [decreaseExponent, same, Nat.shiftLeft_eq, Int.add_sub_cancel]
  simpa using back

/-! ## Packing -/

theorem le_iff {a b : Float} : a ≤ b ↔ a.toModel.unpack.le b.toModel.unpack = true := by
  change Float.le a b = true ↔ _
  rw [Float.le, decide_eq_true_eq]
  rfl

theorem lt_iff {a b : Float} : a < b ↔ a.toModel.unpack.lt b.toModel.unpack = true := by
  change Float.lt a b = true ↔ _
  rw [Float.lt, decide_eq_true_eq]
  rfl

theorem beq_eq (a b : Float) : (a == b) = a.toModel.unpack.beq b.toModel.unpack :=
  rfl

theorem unpack_pack_infinity (sign : Sign) :
    (Float.Model.pack (.infinity sign)).unpack = .infinity sign := by
  cases sign <;> rfl

theorem unpack_pack_nan : (Float.Model.pack .notANumber).unpack = .notANumber :=
  rfl

theorem unpack_pack_zero (sign : Sign) :
    (Float.Model.pack (.zero sign)).unpack = .zero sign := by
  cases sign <;> rfl

theorem unpackSign_packComponents {format : Format} (sign : Sign)
    (biased : BitVec format.exponentBits) (fraction : BitVec format.mantissaBitsWithoutImplicit) :
    unpackSign (packComponents format sign biased fraction) = sign.toBitVec := by
  refine BitVec.eq_of_getLsbD_eq fun index inside => ?_
  have first : index = 0 := by omega
  subst first
  simp [unpackSign, packComponents, BitVec.getLsbD_append, BitVec.getElem_append]

theorem ofBitVec_toBitVec (sign : Sign) : Sign.ofBitVec sign.toBitVec = sign := by
  cases sign <;> rfl

/-- The first bit of a full mantissa is not written. -/
theorem toNat_full (fraction : BitVec Format.binary64.mantissaBitsWithoutImplicit) :
    (1#1 ++ fraction).toNat = leastMantissa + fraction.toNat := by
  rw [BitVec.toNat_append, show ((1#1).toNat <<< 52) = 2 ^ 52 * 1 from rfl,
    ← Nat.two_pow_add_eq_or_of_lt fraction.isLt]
  rfl

theorem finite_congr (sign : Sign) {positive : 0 < mantissa} {positive' : 0 < other}
    {exponent' : Int} (same : mantissa = other) (sameExponent : exponent = exponent') :
    UnpackedFloat.finite sign mantissa exponent positive = .finite sign other exponent' positive' := by
  subst same sameExponent
  rfl

section Parts

variable {biased : BitVec Format.binary64.exponentBits}
  {fraction : BitVec Format.binary64.mantissaBitsWithoutImplicit}

/-- The parts of a double with a full mantissa are read back. -/
theorem unpack_full (sign : Sign) (notLargest : biased ≠ -1#_) (notLeast : biased ≠ 0#_) :
    UnpackedFloat.unpack .binary64 (packComponents .binary64 sign biased fraction) =
      .finite sign (leastMantissa + fraction.toNat) ((biased.toNat : Int) - 1075)
        (Nat.add_pos_left (by decide) _) := by
  unfold UnpackedFloat.unpack
  simp only [unpackExponent_packComponents, unpackMantissa_packComponents,
    unpackSign_packComponents, ofBitVec_toBitVec]
  rw [if_neg notLargest, if_neg notLeast]
  exact finite_congr sign (toNat_full fraction) rfl

/-- The parts of a double at the least exponent are read back. -/
theorem unpack_short (sign : Sign) (positive : 0 < fraction.toNat) :
    UnpackedFloat.unpack .binary64 (packComponents .binary64 sign 0#_ fraction) =
      .finite sign fraction.toNat (-1074) positive := by
  have nonzero : fraction ≠ 0#_ := fun zero => by simp [zero] at positive
  unfold UnpackedFloat.unpack
  simp only [unpackExponent_packComponents, unpackMantissa_packComponents,
    unpackSign_packComponents, ofBitVec_toBitVec]
  rw [if_neg (by decide), if_pos trivial, dif_neg nonzero]
  rfl

end Parts

/-- A double whose exponent is not too large is unpacked as it was packed. -/
theorem unpack_pack_finite (sign : Sign) (normal : Normal mantissa exponent) :
    (Float.Model.pack (.finite sign mantissa exponent normal.positive)).unpack =
      if exponent ≤ 971 then .finite sign mantissa exponent normal.positive
      else .infinity sign := by
  have biasedExponent : (exponent + Format.binary64.exponentBias +
      Format.binary64.mantissaBitsWithoutImplicit).toNat = (exponent + 1075).toNat := by
    change (exponent + 1023 + 52).toNat = _
    omega
  have exponents : 2 ^ Format.binary64.exponentBits = 2048 := rfl
  obtain ⟨positive, bounded, least, small⟩ := normal
  have fractionBits : (BitVec.ofNat Format.binary64.mantissaBitsWithoutImplicit mantissa).toNat =
      mantissa % leastMantissa := rfl
  change UnpackedFloat.unpack .binary64 (UnpackedFloat.pack .binary64 _) = _
  simp only [UnpackedFloat.pack, biasedExponent, exponents]
  by_cases large : exponent ≤ 971
  · rw [if_neg (by omega), if_pos large]
    split
    · rename_i full
      have long : 52 ≤ mantissa.log2 := (Nat.add_right_cancel (m := 1) full).ge
      have reached : leastMantissa ≤ mantissa := (Nat.le_log2 positive.ne').mp long
      have biasedBits : (BitVec.ofNat Format.binary64.exponentBits (exponent + 1075).toNat).toNat =
          (exponent + 1075).toNat := by
        change (exponent + 1075).toNat % 2048 = _
        omega
      rw [unpack_full]
      · refine finite_congr sign ?_ ?_
        · rw [fractionBits, Nat.mod_eq_sub_mod reached, Nat.mod_eq_of_lt] <;> omega
        · rw [biasedBits]
          omega
      · intro same
        have value := congrArg BitVec.toNat same
        rw [biasedBits] at value
        change (exponent + 1075).toNat = 2047 at value
        omega
      · intro same
        have value := congrArg BitVec.toNat same
        rw [biasedBits] at value
        change (exponent + 1075).toNat = 0 at value
        omega
    · rename_i short
      have few : mantissa.log2 ≠ 52 := fun full => short (congrArg (· + 1) full)
      have fits : mantissa.log2 < 53 := (Nat.log2_lt positive.ne').mpr bounded
      have fewer : mantissa.log2 < 52 := by omega
      have isSmall : mantissa < leastMantissa := (Nat.log2_lt positive.ne').mp fewer
      have bits : (BitVec.ofNat Format.binary64.mantissaBitsWithoutImplicit mantissa).toNat =
          mantissa := by
        rw [fractionBits, Nat.mod_eq_of_lt isSmall]
      rw [unpack_short sign (by rw [bits]; exact positive)]
      exact finite_congr sign bits (small isSmall).symm
  · rw [if_pos (by omega), if_neg large]
    exact unpack_pack_infinity sign

/-! ## Differences -/

/-- On which side of zero a double is. -/
def side (unpacked : UnpackedFloat) : Option Ordering :=
  unpacked.compare (.zero .positive)

/-- A double that is rounded is on the side of its sign. -/
theorem side_of_round (sign : Sign) (positive : 0 < mantissa) (least : -1074 ≤ exponent) :
    side (Float.Model.pack (UnpackedFloat.round .binary64 sign mantissa exponent)).unpack =
      some (compare (signed sign 1) 0) := by
  obtain ⟨rounded, target, normal, isRounded⟩ := exists_round sign positive least
  rw [isRounded, unpack_pack_finite sign normal]
  split <;> cases sign <;> rfl

/-- A signed number is rounded to its own side of zero. -/
theorem side_of_normalize (difference : Int) (least : -1074 ≤ exponent) :
    side (Float.Model.pack (UnpackedFloat.normalize .binary64 difference exponent .positive)).unpack =
      some (compare difference 0) := by
  unfold UnpackedFloat.normalize
  split
  · rename_i negative
    have below := compare_lt_iff_lt.mp negative
    rw [side_of_round .negative (by omega) least, negative]
    rfl
  · rename_i zero
    rw [unpack_pack_zero, zero]
    rfl
  · rename_i positive
    have above := compare_gt_iff_gt.mp positive
    rw [side_of_round .positive (by omega) least, positive]
    rfl

theorem side_of_finite (sign : Sign) (normal : Normal mantissa exponent) :
    side (Float.Model.pack (.finite sign mantissa exponent normal.positive)).unpack =
      some (compare (signed sign (mantissa <<< (exponent + unitExponent).toNat)) 0) := by
  have units := units_pos normal.positive exponent
  rw [unpack_pack_finite sign normal]
  cases sign with
  | negative =>
    have below : signed .negative (mantissa <<< (exponent + unitExponent).toNat) < 0 := by
      simp only [signed]
      omega
    rw [compare_lt_iff_lt.mpr below]
    split <;> rfl
  | positive =>
    have above : 0 < signed .positive (mantissa <<< (exponent + unitExponent).toNat) := by
      simp only [signed]
      omega
    rw [compare_gt_iff_gt.mpr above]
    split <;> rfl

/-- The units of a double, counted from a smaller exponent. -/
theorem signed_units (sign : Sign) (mantissa : Nat) {smaller : Int} (least : -1074 ≤ smaller)
    (below : smaller ≤ exponent) :
    signed sign (mantissa <<< (exponent + unitExponent).toNat) =
      sign.apply ((decreaseExponent mantissa exponent smaller).1 : Nat) *
        2 ^ (smaller + unitExponent).toNat := by
  have split : (exponent + unitExponent).toNat =
      (exponent - smaller).toNat + (smaller + unitExponent).toNat := by
    simp only [unitExponent]
    omega
  rw [decreaseExponent, split, Nat.shiftLeft_eq, Nat.shiftLeft_eq, Nat.pow_add, ← Nat.mul_assoc]
  cases sign <;> simp [signed, Sign.apply]

theorem compare_mul_right {left right scale : Int} (positive : 0 < scale) :
    compare (left * scale) (right * scale) = compare (left - right) 0 := by
  rcases lt_trichotomy left right with less | rfl | more
  · rw [compare_lt_iff_lt.mpr (Int.mul_lt_mul_of_pos_right less positive),
      compare_lt_iff_lt.mpr (by omega)]
  · simp
  · rw [compare_gt_iff_gt.mpr (Int.mul_lt_mul_of_pos_right more positive),
      compare_gt_iff_gt.mpr (by omega)]

theorem compare_neg_left (value : Int) : compare (-value) 0 = compare 0 value := by
  rcases lt_trichotomy value 0 with negative | rfl | positive
  · rw [compare_gt_iff_gt.mpr (by omega), compare_gt_iff_gt.mpr negative]
  · rfl
  · rw [compare_lt_iff_lt.mpr (by omega), compare_lt_iff_lt.mpr positive]

/-- A difference of doubles is on that side of zero on which the exact difference is. -/
theorem side_of_sub {minuend subtrahend : UnpackedFloat} (representable : Representable minuend)
    (representable' : Representable subtrahend) {units units' : Int}
    (placed : place minuend = .finite units) (placed' : place subtrahend = .finite units') :
    side (Float.Model.pack (UnpackedFloat.sub .binary64 minuend subtrahend)).unpack =
      some (compare units units') := by
  cases minuend with
  | notANumber => cases placed
  | infinity sign => cases sign <;> cases placed
  | zero sign =>
    cases placed
    cases subtrahend with
    | notANumber => cases placed'
    | infinity sign' => cases sign' <;> cases placed'
    | zero sign' =>
      cases placed'
      cases sign <;> cases sign' <;> rfl
    | finite sign' other exponent positive =>
      cases placed'
      refine (side_of_finite (-sign') representable').trans (congrArg some ?_)
      rw [← compare_neg_left]
      cases sign' with
      | negative => exact congrArg (compare · 0) (Int.neg_neg _).symm
      | positive => rfl
  | finite sign mantissa exponent positive =>
    cases placed
    cases subtrahend with
    | notANumber => cases placed'
    | infinity sign' => cases sign' <;> cases placed'
    | zero sign' =>
      cases placed'
      exact side_of_finite sign representable
    | finite sign' other exponent' positive' =>
      cases placed'
      have least := representable.least_exponent
      have least' := representable'.least_exponent
      refine (side_of_normalize _ (by omega)).trans (congrArg some ?_)
      rw [signed_units sign mantissa (by omega) (Int.min_le_left exponent exponent'),
        signed_units sign' other (by omega) (Int.min_le_right exponent exponent'),
        compare_mul_right (by positivity)]
      rfl

/-! ## Whole numbers -/

/-- A mantissa that is not too long can be filled up with zeros. -/
theorem normal_filled (positive : 0 < mantissa) (short : mantissa < 2 * leastMantissa)
    (shift : Nat) :
    Normal (mantissa * 2 ^ (52 - mantissa.log2)) ((shift : Int) - (52 - mantissa.log2 : Nat)) := by
  have fits : mantissa.log2 < 53 := (Nat.log2_lt positive.ne').mpr short
  have lower := Nat.log2_self_le positive.ne'
  have upper := Nat.lt_log2_self (n := mantissa)
  have scale := Nat.two_pow_pos (52 - mantissa.log2)
  have full : leastMantissa ≤ mantissa * 2 ^ (52 - mantissa.log2) := by
    calc leastMantissa = 2 ^ mantissa.log2 * 2 ^ (52 - mantissa.log2) := by
          rw [leastMantissa_eq, ← Nat.pow_add]
          congr 1
          omega
      _ ≤ _ := Nat.mul_le_mul_right _ lower
  refine ⟨Nat.mul_pos positive scale, ?_, by omega, fun small => by omega⟩
  calc mantissa * 2 ^ (52 - mantissa.log2)
    _ < 2 ^ (mantissa.log2 + 1) * 2 ^ (52 - mantissa.log2) := Nat.mul_lt_mul_of_pos_right upper scale
    _ = 2 * leastMantissa := by
      rw [leastMantissa_eq, ← Nat.pow_add, ← Nat.pow_succ']
      congr 1
      omega

theorem signed_shiftLeft (sign : Sign) (magnitude count : Nat) :
    signed sign (magnitude <<< count) = signed sign magnitude <<< count := by
  rw [Nat.shiftLeft_eq, Int.shiftLeft_eq]
  cases sign <;> simp [signed]

/-- A whole number with a short mantissa is rounded to what it is. -/
theorem place_round (sign : Sign) {shift : Nat} (positive : 0 < mantissa)
    (short : mantissa < 2 * leastMantissa) (bounded : shift ≤ 971) :
    place (Float.Model.pack (UnpackedFloat.round .binary64 sign (mantissa * 2 ^ shift) 0)).unpack =
      ofInt (signed sign (mantissa * 2 ^ shift)) := by
  have normal := normal_filled positive short shift
  generalize 52 - mantissa.log2 = filled at normal
  have rounded : UnpackedFloat.round .binary64 sign (mantissa * 2 ^ shift) 0 =
      .finite sign (mantissa * 2 ^ filled) (shift - filled) normal.positive := by
    rcases Nat.le_total filled shift with le | le
    · obtain ⟨count, rfl⟩ := Nat.exists_eq_add_of_le le
      have same := round_mul sign normal count
      rw [Nat.mul_assoc, ← Nat.pow_add] at same
      rwa [show ((filled + count : Nat) : Int) - filled - count = 0 by omega] at same
    · obtain ⟨count, rfl⟩ := Nat.exists_eq_add_of_le le
      rw [Nat.pow_add, ← Nat.mul_assoc] at normal
      have same := round_div sign normal
      rw [show (shift : Int) - ((shift + count : Nat) : Int) + count = 0 by omega] at same
      exact same.trans (finite_congr sign (by rw [Nat.pow_add, Nat.mul_assoc]) rfl)
  rw [rounded, unpack_pack_finite sign normal, if_pos (by omega)]
  have exponents : filled + ((shift : Int) - filled + unitExponent).toNat = shift + unitExponent := by
    have := normal.least_exponent
    simp only [unitExponent] at *
    omega
  have units : (mantissa * 2 ^ filled) <<< ((shift : Int) - filled + unitExponent).toNat =
      (mantissa * 2 ^ shift) <<< unitExponent := by
    rw [Nat.shiftLeft_eq, Nat.shiftLeft_eq, Nat.mul_assoc, Nat.mul_assoc, ← Nat.pow_add,
      ← Nat.pow_add, exponents]
  rw [place, units, ofInt, signed_shiftLeft]

end TablePipeline.Number
