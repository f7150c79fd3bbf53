import TablePipeline.Proofs.Number.Rounding

/-! # Numbers are compared exactly

The places of numbers are ordered as the numbers are, with the infinities at the ends and NaN above
them. Two shorter ways to compare come to the same. The bits of two doubles can be compared as signed
integers, once those of negative doubles are turned over. An integer and a double can be compared by
their parts: the whole part of a double is an integer if the double is in range, and where the
integers are equal the fraction decides.
-/

namespace TablePipeline.Number

open Float.Model (Format UnpackedFloat)
open Float.Model.UnpackedFloat (Sign unpackMantissa unpackExponent unpackSign)

/-! ## Places as numbers -/

/-- The number at a place; NaN is above all. -/
noncomputable def Position.number : Position → WithTop EReal
  | .negInf => ((⊥ : EReal) : WithTop EReal)
  | .finite units => (((units : ℝ) * 2 ^ (-(unitExponent : ℤ)) : ℝ) : EReal)
  | .posInf => ((⊤ : EReal) : WithTop EReal)
  | .nan => ⊤

/-- The number that an unpacked double stands for; NaN is above all. -/
noncomputable def exactNumber : UnpackedFloat → WithTop EReal
  | .notANumber => ⊤
  | .infinity .positive => ((⊤ : EReal) : WithTop EReal)
  | .infinity .negative => ((⊥ : EReal) : WithTop EReal)
  | .zero _ => ((0 : ℝ) : EReal)
  | .finite sign mantissa exponent _ =>
    (((signed sign mantissa : ℝ) * 2 ^ exponent : ℝ) : EReal)

/-- A double is at the place of its number. -/
theorem number_place {unpacked : UnpackedFloat} (representable : Representable unpacked) :
    (place unpacked).number = exactNumber unpacked := by
  cases unpacked with
  | notANumber => rfl
  | infinity sign => cases sign <;> rfl
  | zero sign => simp [place, Position.number, exactNumber]
  | finite sign mantissa exponent positive =>
    have least := representable.least_exponent
    obtain ⟨count, isCount⟩ : ∃ count : Nat, exponent + unitExponent = count :=
      ⟨(exponent + unitExponent).toNat, by simp only [unitExponent]; omega⟩
    have moved : (2 : ℝ) ^ count * 2 ^ (-(unitExponent : ℤ)) = 2 ^ exponent := by
      rw [← zpow_natCast, ← zpow_add₀ two_ne_zero, ← isCount, add_neg_cancel_right]
    have units : ((signed sign (mantissa <<< count) : ℤ) : ℝ) = signed sign mantissa * 2 ^ count := by
      rw [Nat.shiftLeft_eq]
      cases sign <;> simp [signed]
    simp only [place, isCount, Int.toNat_natCast, Position.number, exactNumber, units, mul_assoc,
      moved]

/-- An integer is at the place of its number. -/
theorem number_ofInt (value : Int) : (ofInt value).number = ((value : ℝ) : EReal) := by
  have moved : (2 : ℝ) ^ unitExponent * 2 ^ (-(unitExponent : ℤ)) = 1 := by
    rw [← zpow_natCast, ← zpow_add₀ two_ne_zero, add_neg_cancel, zpow_zero]
  have units : ((value <<< unitExponent : ℤ) : ℝ) * 2 ^ (-(unitExponent : ℤ)) = value := by
    rw [Int.shiftLeft_eq]
    push_cast
    rw [mul_assoc, moved, mul_one]
  rw [ofInt, Position.number, units]

namespace Position

theorem order_eq_lt {a b : Position} :
    a.order b = .lt ↔ a.region < b.region ∨ a.region = b.region ∧ a.offset < b.offset := by
  rw [order, Ordering.then_eq_lt, compare_lt_iff_lt, compare_lt_iff_lt, compare_eq_iff_eq]

theorem swap_order (a b : Position) : (a.order b).swap = b.order a := by
  rw [order, order, Ordering.swap_then, ← Std.OrientedCmp.eq_swap, ← Std.OrientedCmp.eq_swap]

/-- A place below another one is that of a smaller number. -/
theorem number_lt {a b : Position} (below : a.order b = .lt) : a.number < b.number := by
  rw [order_eq_lt] at below
  cases a with
  | negInf =>
    cases b with
    | negInf => simp [offset] at below
    | finite units => exact WithTop.coe_lt_coe.mpr (EReal.bot_lt_coe _)
    | posInf => exact WithTop.coe_lt_coe.mpr bot_lt_top
    | nan => exact WithTop.coe_lt_top _
  | finite units =>
    cases b with
    | negInf => simp [region] at below
    | finite units' =>
      have less : (units : ℝ) < units' := by simpa [region, offset] using below
      have scale : (0 : ℝ) < 2 ^ (-(unitExponent : ℤ)) := zpow_pos two_pos _
      exact WithTop.coe_lt_coe.mpr (EReal.coe_lt_coe_iff.mpr (mul_lt_mul_of_pos_right less scale))
    | posInf => exact WithTop.coe_lt_coe.mpr (EReal.coe_lt_top _)
    | nan => exact WithTop.coe_lt_top _
  | posInf =>
    cases b with
    | nan => exact WithTop.coe_lt_top _
    | negInf | finite | posInf => simp [region, offset] at below
  | nan => cases b <;> simp [region, offset] at below

/-- Places are ordered as the numbers at them are. -/
theorem compares_number (a b : Position) : (a.order b).Compares a.number b.number := by
  cases ordered : a.order b with
  | lt => exact number_lt ordered
  | eq => exact congrArg number (order_eq_eq.mp ordered)
  | gt =>
    have swapped := swap_order a b
    rw [ordered] at swapped
    exact number_lt swapped.symm

end Position

/-! ## Comparison by bits -/

/-- The bits of a double as a signed integer, all but the first turned over if it is negative. -/
def bitRank (value : Float) : Int :=
  let bits := value.toBits.toBitVec
  (bits ^^^ (bits.sshiftRight 63 >>> 1)).toInt

/-- The order of two doubles by their bits. -/
def orderByBits (a b : Float) : Ordering :=
  compare (bitRank (canonical a)) (bitRank (canonical b))

theorem sshiftRight_first (bits : BitVec 64) :
    bits.sshiftRight 63 = if bits.toNat < 2 ^ 63 then 0 else BitVec.allOnes 64 := by
  refine BitVec.eq_of_toInt_eq ?_
  have small := bits.isLt
  rw [BitVec.toInt_sshiftRight, Int.shiftRight_eq_div_pow, BitVec.toInt_eq_toNat_cond]
  split
  · rw [if_pos (by omega)]
    simp
    omega
  · rw [if_neg (by omega), BitVec.toInt_allOnes]
    simp
    omega

/-- The bits below some place are turned over by the greatest number of as many bits. -/
theorem xor_ones {number count : Nat} (small : number < 2 ^ count) :
    number ^^^ (2 ^ count - 1) = 2 ^ count - 1 - number := by
  have turned := BitVec.toNat_not (x := BitVec.ofNat count number)
  rwa [← BitVec.xor_allOnes, BitVec.toNat_xor, BitVec.toNat_allOnes, BitVec.toNat_ofNat,
    Nat.mod_eq_of_lt small] at turned

theorem bitRank_eq (value : Float) :
    bitRank value = if value.toBits.toNat < 2 ^ 63 then (value.toBits.toNat : Int)
      else 2 ^ 63 - 1 - value.toBits.toNat := by
  change (value.toBits.toBitVec ^^^ _).toInt = if value.toBits.toBitVec.toNat < 2 ^ 63 then
    (value.toBits.toBitVec.toNat : Int) else 2 ^ 63 - 1 - value.toBits.toBitVec.toNat
  generalize value.toBits.toBitVec = bits
  have small := bits.isLt
  rw [sshiftRight_first]
  split
  · rw [BitVec.toInt_eq_toNat_cond]
    simp
    omega
  · have ones : (BitVec.allOnes 64 >>> 1).toNat = 2 ^ 63 - 1 := by decide
    have first : (bits.toNat ^^^ (2 ^ 63 - 1)) / 2 ^ 63 = 1 := by
      rw [Nat.xor_div_two_pow, Nat.div_eq_of_lt (by decide : 2 ^ 63 - 1 < 2 ^ 63), Nat.xor_zero]
      omega
    have others : (bits.toNat ^^^ (2 ^ 63 - 1)) % 2 ^ 63 = 2 ^ 63 - 1 - bits.toNat % 2 ^ 63 := by
      rw [Nat.xor_mod_two_pow, Nat.mod_eq_of_lt (by decide : 2 ^ 63 - 1 < 2 ^ 63)]
      exact xor_ones (Nat.mod_lt _ (by decide))
    have turned : (bits ^^^ (BitVec.allOnes 64 >>> 1)).toNat =
        bits.toNat ^^^ (2 ^ 63 - 1) := by
      rw [BitVec.toNat_xor, ones]
    rw [BitVec.toInt_eq_toNat_cond, turned]
    generalize bits.toNat ^^^ (2 ^ 63 - 1) = result at *
    rw [if_neg (by omega)]
    omega

/-- The units of a double that is not negative, by its bits. -/
def magnitude (bits : Nat) : Nat :=
  if bits < leastMantissa then bits
  else (leastMantissa + bits % leastMantissa) <<< (bits / leastMantissa - 1)

/-- Greater bits are those of a greater magnitude. -/
theorem magnitude_strictMono : StrictMono magnitude := by
  refine strictMono_nat_of_lt_succ fun bits => ?_
  have whole : 0 < leastMantissa := by decide
  have parts := Nat.div_add_mod bits leastMantissa
  have rest := Nat.mod_lt bits whole
  rw [magnitude, magnitude]
  rcases Nat.lt_or_ge bits leastMantissa with small | large
  · rw [if_pos small]
    split
    · exact Nat.lt_succ_self bits
    · have full : bits + 1 = leastMantissa := by omega
      rw [full, Nat.mod_self, Nat.div_self whole]
      exact small
  · have exponent : 1 ≤ bits / leastMantissa := (Nat.one_le_div_iff whole).mpr large
    rw [if_neg (by omega), if_neg (by omega), Nat.shiftLeft_eq, Nat.shiftLeft_eq]
    rcases Nat.lt_or_ge (bits % leastMantissa + 1) leastMantissa with room | carried
    · obtain ⟨same, next⟩ := (Nat.div_mod_unique whole).mpr
        ⟨(by omega : bits % leastMantissa + 1 + leastMantissa * (bits / leastMantissa) = bits + 1),
          room⟩
      rw [same, next]
      exact Nat.mul_lt_mul_of_pos_right (by omega) (Nat.two_pow_pos _)
    · have next : 0 + leastMantissa * (bits / leastMantissa + 1) = bits + 1 := by
        rw [Nat.mul_add]
        omega
      obtain ⟨same, zero⟩ := (Nat.div_mod_unique whole).mpr ⟨next, whole⟩
      rw [same, zero, Nat.add_sub_cancel, ← Nat.sub_add_cancel exponent, Nat.pow_succ',
        ← Nat.mul_assoc, Nat.add_sub_cancel]
      exact Nat.mul_lt_mul_of_pos_right (by omega) (Nat.two_pow_pos _)

/-- The place of a double, by its bits. -/
def bitPlace (bits : Nat) : Position :=
  if bits % 2 ^ 63 < 2047 * leastMantissa then
    .finite (if bits < 2 ^ 63 then magnitude (bits % 2 ^ 63) else -magnitude (bits % 2 ^ 63))
  else if bits % 2 ^ 63 = 2047 * leastMantissa then
    if bits < 2 ^ 63 then .posInf else .negInf
  else .nan

section Parts

variable (bits : BitVec Format.binary64.numBits)

/-- The bits of a double behind its sign are those of its exponent and of its fraction. -/
theorem toNat_parts :
    bits.toNat % 2 ^ 63 =
      leastMantissa * (unpackExponent bits).toNat + (unpackMantissa bits).toNat := by
  have exponent : (unpackExponent bits).toNat = bits.toNat / 2 ^ 52 % 2 ^ 11 := by
    simp [unpackExponent, BitVec.extractLsb_toNat, Nat.shiftRight_eq_div_pow]
  have fraction : (unpackMantissa bits).toNat = bits.toNat % 2 ^ 52 := by
    simp [unpackMantissa, BitVec.extractLsb_toNat]
  rw [exponent, fraction, leastMantissa_eq]
  omega

theorem ofBitVec_unpackSign :
    Sign.ofBitVec (unpackSign bits) = if bits.toNat < 2 ^ 63 then .positive else .negative := by
  have small : bits.toNat < 2 ^ 64 := bits.isLt
  have sign : (unpackSign bits).toNat = bits.toNat / 2 ^ 63 % 2 := by
    simp [unpackSign, BitVec.extractLsb_toNat, Nat.shiftRight_eq_div_pow]
  have isZero : unpackSign bits = 0#1 ↔ bits.toNat < 2 ^ 63 := by
    rw [← BitVec.toNat_inj, sign]
    change bits.toNat / 2 ^ 63 % 2 = 0 ↔ _
    omega
  simp only [Sign.ofBitVec, isZero]

theorem signed_ite {chosen : Prop} [Decidable chosen] (units : Nat) :
    signed (if chosen then .positive else .negative) units = if chosen then (units : Int) else -units := by
  split <;> rfl

/-- The place of a double is told by its bits. -/
theorem place_unpack : place (UnpackedFloat.unpack .binary64 bits) = bitPlace bits.toNat := by
  have parts := toNat_parts bits
  have sign := ofBitVec_unpackSign bits
  have exponentBound : (unpackExponent bits).toNat < 2048 := (unpackExponent bits).isLt
  have fractionBound : (unpackMantissa bits).toNat < leastMantissa := (unpackMantissa bits).isLt
  have value : leastMantissa = 4503599627370496 := rfl
  rw [value] at parts
  rw [bitPlace]
  fun_cases UnpackedFloat.unpack Format.binary64 bits with
  | case1 _ _ _ _ isLargest isZero =>
    have largest : (unpackExponent bits).toNat = 2047 := congrArg BitVec.toNat isLargest
    have zero : (unpackMantissa bits).toNat = 0 := congrArg BitVec.toNat isZero
    rw [if_neg (by omega), if_pos (by omega)]
    change place (.infinity (Sign.ofBitVec (unpackSign bits))) = _
    rw [sign]
    split <;> rfl
  | case2 _ _ isLargest notZero =>
    have largest : (unpackExponent bits).toNat = 2047 := congrArg BitVec.toNat isLargest
    have nonzero : (unpackMantissa bits).toNat ≠ 0 := fun zero =>
      notZero (BitVec.eq_of_toNat_eq zero)
    rw [if_neg (by omega), if_neg (by omega)]
    rfl
  | case3 _ _ _ _ _ isLeast isZero =>
    have least : (unpackExponent bits).toNat = 0 := congrArg BitVec.toNat isLeast
    have zero : (unpackMantissa bits).toNat = 0 := congrArg BitVec.toNat isZero
    have none : bits.toNat % 2 ^ 63 = 0 := by omega
    have zeroUnits : magnitude 0 = 0 := by decide
    rw [none, if_pos (by decide), zeroUnits]
    simp [place]
  | case4 _ _ _ _ _ _ isLeast notZero =>
    have least : (unpackExponent bits).toNat = 0 := congrArg BitVec.toNat isLeast
    have low : bits.toNat % 2 ^ 63 = (unpackMantissa bits).toNat := by omega
    rw [if_pos (by omega), magnitude, low, if_pos fractionBound, ← signed_ite, ← sign]
    have none : (((unpackExponent bits).toNat : Int) - 1075 + 1 + unitExponent).toNat = 0 := by
      simp only [unitExponent]
      omega
    change Position.finite (signed _ ((unpackMantissa bits).toNat <<<
      (((unpackExponent bits).toNat : Int) - 1075 + 1 + unitExponent).toNat)) = _
    rw [none, Nat.shiftLeft_zero]
  | case5 _ _ _ _ _ notLargest notLeast =>
    have positive : (unpackExponent bits).toNat ≠ 0 := fun zero =>
      notLeast (BitVec.eq_of_toNat_eq zero)
    have below : (unpackExponent bits).toNat ≠ 2047 := fun full =>
      notLargest (BitVec.eq_of_toNat_eq full)
    have exponent : bits.toNat % 2 ^ 63 / leastMantissa = (unpackExponent bits).toNat := by
      rw [value]
      omega
    have rest : bits.toNat % 2 ^ 63 % leastMantissa = (unpackMantissa bits).toNat := by
      rw [value]
      omega
    have units : magnitude (bits.toNat % 2 ^ 63) =
        (leastMantissa + (unpackMantissa bits).toNat) <<< ((unpackExponent bits).toNat - 1) := by
      rw [magnitude, if_neg (by omega), exponent, rest]
    rw [if_pos (by omega), units, ← signed_ite, ← sign, ← toNat_full]
    have count : (((unpackExponent bits).toNat : Int) - 1075 + unitExponent).toNat =
        (unpackExponent bits).toNat - 1 := by
      simp only [unitExponent]
      omega
    rw [← count]
    rfl

/-- There is one NaN. -/
theorem toNat_of_valid (valid : Format.binary64.Valid bits)
    (above : 2047 * leastMantissa < bits.toNat % 2 ^ 63) : bits.toNat = 9221120237041090560 := by
  have exponentBound : (unpackExponent bits).toNat < 2048 := (unpackExponent bits).isLt
  have fractionBound : (unpackMantissa bits).toNat < leastMantissa := (unpackMantissa bits).isLt
  have value : leastMantissa = 4503599627370496 := rfl
  have parts := toNat_parts bits
  rw [value] at parts
  have largest : (unpackExponent bits).toNat = 2047 := by omega
  have nonzero : (unpackMantissa bits).toNat ≠ 0 := by omega
  rw [valid.eq_packedNaN (BitVec.eq_of_toNat_eq largest)
    fun zero => nonzero (congrArg BitVec.toNat zero)]
  decide

end Parts

theorem region_bitPlace (bits : Nat) :
    (bitPlace bits).region = if bits % 2 ^ 63 < 2047 * leastMantissa then 1
      else if bits % 2 ^ 63 = 2047 * leastMantissa then if bits < 2 ^ 63 then 2 else 0
      else 3 := by
  rw [bitPlace]
  split
  · rfl
  · split
    · split <;> rfl
    · rfl

theorem offset_bitPlace (bits : Nat) :
    (bitPlace bits).offset = if bits % 2 ^ 63 < 2047 * leastMantissa then
        if bits < 2 ^ 63 then (magnitude (bits % 2 ^ 63) : Int) else -magnitude (bits % 2 ^ 63)
      else 0 := by
  rw [bitPlace]
  split
  · rfl
  · split
    · split <;> rfl
    · rfl

/-- Are bits those of a double that is its own representative? -/
structure CanonicalBits (bits : Nat) : Prop where
  bounded : bits < 2 ^ 64
  notMinusZero : bits ≠ 2 ^ 63
  onlyNaN : 2047 * leastMantissa < bits % 2 ^ 63 → bits = 9221120237041090560

theorem canonicalBits_of_canonical (value : Float) :
    CanonicalBits (canonical value).toBits.toNat := by
  refine ⟨UInt64.toNat_lt _, fun minusZero => ?_, fun above => ?_⟩
  · have isMinus : canonical value = -0.0 := by
      refine Float.toBits_inj.mp (UInt64.toNat_inj.mp (minusZero.trans ?_))
      decide +kernel
    rw [canonical] at isMinus
    split at isMinus
    · revert isMinus
      decide +kernel
    · rename_i notZero
      rw [isMinus] at notZero
      revert notZero
      decide +kernel
  · exact toNat_of_valid _ (canonical value).toModel.valid above

/-- Bits of a lower rank are those of a lower place. -/
theorem order_bitPlace {bits other : Nat} (canonical : CanonicalBits bits)
    (canonical' : CanonicalBits other)
    (less : (if bits < 2 ^ 63 then (bits : Int) else 2 ^ 63 - 1 - bits) <
      if other < 2 ^ 63 then (other : Int) else 2 ^ 63 - 1 - other) :
    (bitPlace bits).order (bitPlace other) = .lt := by
  obtain ⟨bounded, notMinusZero, onlyNaN⟩ := canonical
  obtain ⟨bounded', notMinusZero', onlyNaN'⟩ := canonical'
  have up : bits % 2 ^ 63 < other % 2 ^ 63 →
      magnitude (bits % 2 ^ 63) < magnitude (other % 2 ^ 63) := fun h => magnitude_strictMono h
  have down : other % 2 ^ 63 < bits % 2 ^ 63 →
      magnitude (other % 2 ^ 63) < magnitude (bits % 2 ^ 63) := fun h => magnitude_strictMono h
  have positive : 0 < bits % 2 ^ 63 → magnitude 0 < magnitude (bits % 2 ^ 63) :=
    fun h => magnitude_strictMono h
  have value : leastMantissa = 4503599627370496 := rfl
  rw [Position.order_eq_lt, region_bitPlace, region_bitPlace, offset_bitPlace, offset_bitPlace]
  split_ifs at less ⊢ <;> omega

theorem canonical_canonical (value : Float) : canonical (canonical value) = canonical value := by
  by_cases zero : (value == 0.0) = true
  · have literal : canonical 0.0 = 0.0 := by decide +kernel
    have equal : canonical value = 0.0 := if_pos zero
    rw [equal, literal]
  · have equal : canonical value = value := if_neg zero
    rw [equal, equal]

/-- The bits of a double tell its place. -/
theorem ofFloat_eq_bitPlace (value : Float) :
    ofFloat value = bitPlace (canonical value).toBits.toNat := by
  rw [ofFloat_eq_ofFloat.mpr (canonical_canonical value).symm, ofFloat_eq_place]
  exact place_unpack _

/-- Doubles are ordered by their bits as they are by their places. -/
theorem orderByBits_eq (a b : Float) : orderByBits a b = (ofFloat a).order (ofFloat b) := by
  have bits := canonicalBits_of_canonical a
  have bits' := canonicalBits_of_canonical b
  rw [orderByBits, bitRank_eq, bitRank_eq, ofFloat_eq_bitPlace, ofFloat_eq_bitPlace]
  generalize (canonical a).toBits.toNat = first at *
  generalize (canonical b).toBits.toNat = second at *
  rcases lt_trichotomy (if first < 2 ^ 63 then (first : Int) else 2 ^ 63 - 1 - first)
    (if second < 2 ^ 63 then (second : Int) else 2 ^ 63 - 1 - second) with less | same | more
  · rw [compare_lt_iff_lt.mpr less, order_bitPlace bits bits' less]
  · have equal : first = second := by
      split_ifs at same <;> omega
    rw [same, equal, Position.order_eq_eq.mpr rfl, compare_eq_iff_eq]
  · rw [compare_gt_iff_gt.mpr more, ← Position.swap_order, order_bitPlace bits' bits more]
    rfl

/-! ## Comparison of doubles -/

/-- Exponents come first where doubles are compared. -/
theorem compare_units {mantissa other : Nat} {exponent exponent' : Int}
    (normal : Normal mantissa exponent) (normal' : Normal other exponent') :
    (compare exponent exponent').then (compare mantissa other) =
      compare (mantissa <<< (exponent + unitExponent).toNat)
        (other <<< (exponent' + unitExponent).toNat) := by
  rcases lt_trichotomy exponent exponent' with less | rfl | more
  · rw [compare_lt_iff_lt.mpr less, compare_lt_iff_lt.mpr (normal.units_lt normal' less)]
    rfl
  · have scale : 0 < 2 ^ (exponent + unitExponent).toNat := Nat.two_pow_pos _
    rw [compare_eq_iff_eq.mpr rfl, Nat.shiftLeft_eq, Nat.shiftLeft_eq]
    rcases lt_trichotomy mantissa other with less | rfl | more
    · rw [compare_lt_iff_lt.mpr less,
        compare_lt_iff_lt.mpr (Nat.mul_lt_mul_of_pos_right less scale)]
      rfl
    · rw [compare_eq_iff_eq.mpr rfl, compare_eq_iff_eq.mpr rfl]
      rfl
    · rw [compare_gt_iff_gt.mpr more,
        compare_gt_iff_gt.mpr (Nat.mul_lt_mul_of_pos_right more scale)]
      rfl
  · rw [compare_gt_iff_gt.mpr more, compare_gt_iff_gt.mpr (normal'.units_lt normal more)]
    rfl

theorem order_finite (units units' : Int) :
    (Position.finite units).order (.finite units') = compare units units' :=
  rfl

section Signs

variable {units units' : Nat}

theorem signed_lt_zero (positive : 0 < units) : signed .negative units < 0 := by
  simp only [signed]
  omega

theorem zero_lt_signed (positive : 0 < units) : 0 < signed .positive units := by
  simp only [signed]
  omega

theorem compare_positive : compare (signed .positive units) (signed .positive units') =
    compare units units' := by
  simp only [signed]
  rcases lt_trichotomy units units' with less | rfl | more
  · rw [compare_lt_iff_lt.mpr less, compare_lt_iff_lt.mpr (by omega)]
  · rw [compare_eq_iff_eq.mpr rfl, compare_eq_iff_eq.mpr rfl]
  · rw [compare_gt_iff_gt.mpr more, compare_gt_iff_gt.mpr (by omega)]

theorem compare_negative : compare (signed .negative units) (signed .negative units') =
    (compare units units').swap := by
  simp only [signed]
  rcases lt_trichotomy units units' with less | rfl | more
  · rw [compare_lt_iff_lt.mpr less, compare_gt_iff_gt.mpr (by omega)]
    rfl
  · rw [compare_eq_iff_eq.mpr rfl, compare_eq_iff_eq.mpr rfl]
    rfl
  · rw [compare_gt_iff_gt.mpr more, compare_lt_iff_lt.mpr (by omega)]
    rfl

end Signs

/-- Doubles are compared as their places are. -/
theorem compare_eq_order {first second : UnpackedFloat} (representable : Representable first)
    (representable' : Representable second) (number : first ≠ .notANumber)
    (number' : second ≠ .notANumber) :
    first.compare second = some ((place first).order (place second)) := by
  cases first with
  | notANumber => exact absurd rfl number
  | infinity sign =>
    cases second with
    | notANumber => exact absurd rfl number'
    | infinity sign' => cases sign <;> cases sign' <;> rfl
    | zero => cases sign <;> rfl
    | finite => cases sign <;> rfl
  | zero =>
    cases second with
    | notANumber => exact absurd rfl number'
    | infinity sign' => cases sign' <;> rfl
    | zero => rfl
    | finite sign' mantissa exponent positive =>
      have units := units_pos positive exponent
      rw [place, place, order_finite]
      cases sign' with
      | negative => rw [compare_gt_iff_gt.mpr (signed_lt_zero units), UnpackedFloat.compare]
      | positive => rw [compare_lt_iff_lt.mpr (zero_lt_signed units), UnpackedFloat.compare]
  | finite sign mantissa exponent positive =>
    have units := units_pos positive exponent
    cases second with
    | notANumber => exact absurd rfl number'
    | infinity sign' => cases sign' <;> rfl
    | zero =>
      rw [place, place, order_finite]
      cases sign with
      | negative => rw [compare_lt_iff_lt.mpr (signed_lt_zero units), UnpackedFloat.compare]
      | positive => rw [compare_gt_iff_gt.mpr (zero_lt_signed units), UnpackedFloat.compare]
    | finite sign' other exponent' positive' =>
      have units' := units_pos positive' exponent'
      have same := compare_units representable representable'
      rw [place, place, order_finite]
      cases sign with
      | negative =>
        cases sign' with
        | negative => rw [compare_negative, ← same, UnpackedFloat.compare]
        | positive =>
          have below := (signed_lt_zero units).trans (zero_lt_signed units')
          rw [compare_lt_iff_lt.mpr below, UnpackedFloat.compare]
      | positive =>
        cases sign' with
        | negative =>
          have above := (signed_lt_zero units').trans (zero_lt_signed units)
          rw [compare_gt_iff_gt.mpr above, UnpackedFloat.compare]
        | positive => rw [compare_positive, ← same, UnpackedFloat.compare]

end TablePipeline.Number
