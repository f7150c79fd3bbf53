import Mathlib.Algebra.Order.Field.Power
import Mathlib.Data.Rat.Cast.Order
import Mathlib.Tactic.FieldSimp
import Mathlib.Tactic.Linarith
import Mathlib.Tactic.LinearCombination
import Mathlib.Tactic.Positivity
import Mathlib.Tactic.Ring
import TablePipeline.Number.Shortest

/-! # The fewest digits read back

The decimal that a double is written with rounds to that double and to no other: seventeen digits
always reach into the rounding interval, and the rounding intervals of two doubles share nothing.
All of this is said over the rationals.
-/

namespace TablePipeline.Number

/-! ## Fractions and decimals as rationals -/

/-- The number that a decimal stands for. -/
def Decimal.value (decimal : Decimal) : ℚ :=
  decimal.digits * 10 ^ decimal.exponent

/-! ## Numbers of digits -/

theorem lt_pow_length (number : Nat) : number < 10 ^ (Nat.toDigits 10 number).length :=
  (Nat.length_toDigits_le_iff (by decide) Nat.length_toDigits_pos).1 le_rfl

theorem pow_pred_length_le {number : Nat} (positive : 0 < number) :
    10 ^ ((Nat.toDigits 10 number).length - 1) ≤ number := by
  rcases Nat.eq_zero_or_pos ((Nat.toDigits 10 number).length - 1) with one | more
  · rw [one]
    exact positive
  · refine not_lt.1 fun short => ?_
    have := (Nat.length_toDigits_le_iff (by decide) more).2 short
    omega

namespace Fraction

/-- The number that a fraction stands for. -/
def value (fraction : Fraction) : ℚ :=
  fraction.numerator / fraction.denominator

variable {fraction : Fraction}

theorem value_scale (fraction : Fraction) {base : Nat} (positive : 0 < base) (exponent : Int) :
    (fraction.scale base exponent).value = fraction.value * (base : ℚ) ^ exponent := by
  rw [scale]
  split
  · rename_i whole
    obtain ⟨power, rfl⟩ := Int.eq_ofNat_of_zero_le whole
    simp [value]
    ring
  · rename_i negative
    obtain ⟨power, rfl⟩ : ∃ power : Nat, exponent = -(power : ℤ) :=
      ⟨(-exponent).toNat, by omega⟩
    simp [value]
    field_simp

theorem denominator_scale (whole : 0 < fraction.denominator) {base : Nat} (positive : 0 < base)
    (exponent : Int) : 0 < (fraction.scale base exponent).denominator := by
  rw [scale]
  split
  · exact whole
  · exact Nat.mul_pos whole (Nat.pow_pos positive)

theorem numerator_scale (positive : 0 < fraction.numerator) {base : Nat} (base_pos : 0 < base)
    (exponent : Int) : 0 < (fraction.scale base exponent).numerator := by
  rw [scale]
  split
  · exact Nat.mul_pos positive (Nat.pow_pos base_pos)
  · exact positive

theorem floor_le_value (whole : 0 < fraction.denominator) :
    (fraction.floor : ℚ) ≤ fraction.value := by
  rw [value, le_div_iff₀ (by exact_mod_cast whole)]
  exact_mod_cast Nat.div_mul_le_self fraction.numerator fraction.denominator

theorem value_lt_floor (whole : 0 < fraction.denominator) :
    fraction.value < fraction.floor + 1 := by
  rw [value, div_lt_iff₀ (by exact_mod_cast whole)]
  exact_mod_cast Nat.lt_mul_of_div_lt (Nat.lt_succ_self fraction.floor) whole

/-- A positive fraction is not below the power of ten of its decade. -/
theorem pow_decade_le (whole : 0 < fraction.denominator) (positive : 0 < fraction.numerator) :
    (10 : ℚ) ^ fraction.decade ≤ fraction.value := by
  rw [decade]
  split
  · rename_i large
    have reached := pow_pred_length_le (Nat.div_pos large whole : 0 < fraction.floor)
    calc (10 : ℚ) ^ (((Nat.toDigits 10 fraction.floor).length : ℤ) - 1)
      _ = ((10 ^ ((Nat.toDigits 10 fraction.floor).length - 1) : ℕ) : ℚ) := by
        rw [← Nat.cast_pred Nat.length_toDigits_pos]
        push_cast
        rw [zpow_natCast]
      _ ≤ fraction.floor := by exact_mod_cast reached
      _ ≤ fraction.value := floor_le_value whole
  · set quotient := (fraction.denominator - 1) / fraction.numerator
    have covered : fraction.denominator ≤
        fraction.numerator * 10 ^ (Nat.toDigits 10 quotient).length := by
      have := (Nat.div_lt_iff_lt_mul positive).1 (lt_pow_length quotient)
      rw [Nat.mul_comm] at this
      omega
    rw [zpow_neg, zpow_natCast, value, inv_eq_one_div, div_le_div_iff₀ (by positivity)
      (by exact_mod_cast whole), one_mul]
    exact_mod_cast covered

end Fraction

/-! ## What the rounding interval of a double holds -/

namespace RoundingInterval

/-- The number is between the ends of the interval, which belong to it if it is closed. -/
def Holds (interval : RoundingInterval) (number : ℚ) : Prop :=
  if interval.closed then
    interval.lower * (2 : ℚ) ^ interval.exponent ≤ number ∧
      number ≤ interval.upper * (2 : ℚ) ^ interval.exponent
  else
    interval.lower * (2 : ℚ) ^ interval.exponent < number ∧
      number < interval.upper * (2 : ℚ) ^ interval.exponent

variable {interval : RoundingInterval}

theorem Holds.of_lt {number : ℚ} (above : interval.lower * (2 : ℚ) ^ interval.exponent < number)
    (below : number < interval.upper * (2 : ℚ) ^ interval.exponent) : interval.Holds number := by
  rw [Holds]
  split
  · exact ⟨above.le, below.le⟩
  · exact ⟨above, below⟩

theorem Holds.lower_le {number : ℚ} (held : interval.Holds number) :
    interval.lower * (2 : ℚ) ^ interval.exponent ≤ number := by
  rw [Holds] at held
  split at held
  · exact held.1
  · exact held.1.le

theorem Holds.le_upper {number : ℚ} (held : interval.Holds number) :
    number ≤ interval.upper * (2 : ℚ) ^ interval.exponent := by
  rw [Holds] at held
  split at held
  · exact held.2
  · exact held.2.le

/-- The comparisons of naturals decide what the interval holds. -/
theorem contains_iff (interval : RoundingInterval) (decimal : Decimal) :
    interval.contains decimal = true ↔ interval.Holds decimal.value := by
  rw [contains, Holds]
  generalize scaled : ((Fraction.mk decimal.digits 1).scale 10 decimal.exponent).scale 2
    (-interval.exponent) = point
  have whole : 0 < point.denominator := scaled ▸
    Fraction.denominator_scale (Fraction.denominator_scale Nat.one_pos (by decide) _) (by decide) _
  have wholeQ : (0 : ℚ) < point.denominator := by exact_mod_cast whole
  have valued : decimal.value * (2 : ℚ) ^ (-interval.exponent) =
      point.numerator / point.denominator := by
    have := congrArg Fraction.value scaled
    rw [Fraction.value_scale _ (by decide), Fraction.value_scale _ (by decide)] at this
    simpa [Fraction.value, Decimal.value] using this
  have unit : (0 : ℚ) < 2 ^ interval.exponent := by positivity
  have number : decimal.value = point.numerator / point.denominator * 2 ^ interval.exponent := by
    rw [← valued, zpow_neg, mul_assoc, inv_mul_cancel₀ unit.ne', mul_one]
  rw [number]
  split
  · simp only [decide_eq_true_eq, mul_le_mul_iff_left₀ unit, le_div_iff₀ wholeQ, div_le_iff₀ wholeQ]
    exact_mod_cast Iff.rfl
  · simp only [decide_eq_true_eq, mul_lt_mul_iff_left₀ unit, lt_div_iff₀ wholeQ, div_lt_iff₀ wholeQ]
    exact_mod_cast Iff.rfl

theorem value_fraction (interval : RoundingInterval) :
    interval.fraction.value = interval.value * (2 : ℚ) ^ interval.exponent := by
  rw [fraction, Fraction.value_scale _ (by decide)]
  simp [Fraction.value]

/-- What a grid gives lies in the interval. -/
theorem holds_of_onGrid {exponent : Int} {decimal : Decimal}
    (found : interval.onGrid? exponent = some decimal) : interval.Holds decimal.value := by
  rw [← contains_iff]
  rw [onGrid?] at found
  split at found
  · split at found <;> · cases found; assumption
  · cases found; assumption
  · cases found; assumption
  · cases found

/-- The exact value lies between its two neighbours on a grid. -/
theorem value_between (interval : RoundingInterval) (exponent : Int) :
    ((interval.fraction.scale 10 (-exponent)).floor : ℚ) * 10 ^ exponent ≤
        interval.value * (2 : ℚ) ^ interval.exponent ∧
      interval.value * (2 : ℚ) ^ interval.exponent <
        ((interval.fraction.scale 10 (-exponent)).floor + 1) * 10 ^ exponent := by
  have whole : 0 < (interval.fraction.scale 10 (-exponent)).denominator :=
    Fraction.denominator_scale (Fraction.denominator_scale Nat.one_pos (by decide) _) (by decide) _
  have unit : (0 : ℚ) < 10 ^ exponent := by positivity
  have valued : (interval.fraction.scale 10 (-exponent)).value * 10 ^ exponent =
      interval.value * (2 : ℚ) ^ interval.exponent := by
    rw [Fraction.value_scale _ (by decide), value_fraction, Nat.cast_ofNat, mul_assoc,
      zpow_neg, inv_mul_cancel₀ unit.ne', mul_one]
  rw [← valued]
  exact ⟨mul_le_mul_of_nonneg_right (Fraction.floor_le_value whole) unit.le,
    mul_lt_mul_of_pos_right (Fraction.value_lt_floor whole) unit⟩

/-- A grid that gives nothing has no point of the interval next to the exact value. -/
theorem not_holds_of_onGrid {exponent : Int} (missed : interval.onGrid? exponent = none) :
    ∃ below : Nat,
      below * (10 : ℚ) ^ exponent ≤ interval.value * (2 : ℚ) ^ interval.exponent ∧
      interval.value * (2 : ℚ) ^ interval.exponent < (below + 1) * (10 : ℚ) ^ exponent ∧
      ¬ interval.Holds (below * (10 : ℚ) ^ exponent) ∧
      ¬ interval.Holds ((below + 1) * (10 : ℚ) ^ exponent) := by
  obtain ⟨low, high⟩ := interval.value_between exponent
  have misses (count : Nat) (absent : interval.contains ⟨count, exponent⟩ = false) :
      ¬ interval.Holds (count * (10 : ℚ) ^ exponent) := fun held => by
    rw [(contains_iff interval ⟨count, exponent⟩).2 held] at absent
    cases absent
  rw [onGrid?] at missed
  split at missed
  · split at missed <;> cases missed
  · cases missed
  · cases missed
  · rename_i below above
    exact ⟨_, low, high, misses _ below, by exact_mod_cast misses _ above⟩

end RoundingInterval

/-! ## Doubles in normal form -/

/-- The mantissa and the exponent are those of a positive double: the mantissa has fifty-three bits,
or fewer at the least exponent. -/
structure Normal (mantissa : Nat) (exponent : Int) : Prop where
  positive : 0 < mantissa
  bounded : mantissa < 2 * leastMantissa
  least_exponent : -1074 ≤ exponent
  of_small : mantissa < leastMantissa → exponent = -1074

namespace RoundingInterval

variable {mantissa other : Nat} {exponent exponent' : Int} {number : ℚ}

theorem lower_bounds (positive : 0 < mantissa) (exponent : Int) :
    4 * mantissa ≤ (ofDouble mantissa exponent).lower + 2 ∧
      (ofDouble mantissa exponent).lower < 4 * mantissa ∧
      (mantissa ≠ leastMantissa → (ofDouble mantissa exponent).lower + 2 = 4 * mantissa) := by
  simp only [ofDouble]
  split <;> omega

/-- The grid of seventeen digits, measured by the last binary place. -/
theorem seventeenth_place_le (positive : 0 < mantissa) (exponent : Int) :
    (10 : ℚ) ^ ((ofDouble mantissa exponent).fraction.decade - 16) * 10 ^ 16 ≤
      4 * mantissa * 2 ^ (ofDouble mantissa exponent).exponent := by
  calc (10 : ℚ) ^ ((ofDouble mantissa exponent).fraction.decade - 16) * 10 ^ 16
    _ = 10 ^ (ofDouble mantissa exponent).fraction.decade := by
      rw [zpow_sub₀ (by norm_num)]
      norm_num
    _ ≤ (ofDouble mantissa exponent).fraction.value :=
      Fraction.pow_decade_le (Fraction.denominator_scale Nat.one_pos (by decide) _)
        (Fraction.numerator_scale (by simpa [ofDouble] using positive) (by decide) _)
    _ = 4 * mantissa * 2 ^ (ofDouble mantissa exponent).exponent := by
      rw [value_fraction]
      simp [ofDouble]

/-- Seventeen digits reach into the rounding interval. -/
theorem onGrid_seventeen (positive : 0 < mantissa) (bounded : mantissa < 2 * leastMantissa)
    (exponent : Int) :
    (ofDouble mantissa exponent).onGrid?
      ((ofDouble mantissa exponent).fraction.decade - 16) ≠ none := by
  intro missed
  obtain ⟨below, low, high, lowOut, highOut⟩ := not_holds_of_onGrid missed
  have fine := seventeenth_place_le positive exponent
  generalize (ofDouble mantissa exponent).fraction.decade - 16 = place at *
  set unit := (2 : ℚ) ^ (ofDouble mantissa exponent).exponent
  have unitPositive : 0 < unit := by positivity
  set lower := (ofDouble mantissa exponent).lower
  obtain ⟨_, lower_lt, lower_eq⟩ := lower_bounds positive exponent
  have value : (((ofDouble mantissa exponent).value : ℕ) : ℚ) = 4 * mantissa := by simp [ofDouble]
  have upper : (((ofDouble mantissa exponent).upper : ℕ) : ℚ) = 4 * mantissa + 2 := by
    simp [ofDouble]
  rw [value] at low high
  -- neither neighbour is in the interval, which then lies between the two
  have overshoot : (4 * mantissa + 2) * unit ≤ (below + 1) * 10 ^ place := by
    rw [← upper]
    refine not_lt.1 fun short => highOut (.of_lt (lt_trans ?_ high) short)
    exact mul_lt_mul_of_pos_right (by exact_mod_cast lower_lt) unitPositive
  have undershoot : below * 10 ^ place ≤ lower * unit := by
    refine not_lt.1 fun past => lowOut (.of_lt past (lt_of_le_of_lt low ?_))
    rw [upper]
    linarith
  rcases eq_or_ne mantissa leastMantissa with rfl | more
  · have below_value : (lower : ℚ) * unit ≤ (4 * leastMantissa - 1) * unit := by
      have : (lower : ℚ) + 1 ≤ 4 * leastMantissa := by exact_mod_cast lower_lt
      gcongr
      linarith
    norm_num [leastMantissa] at fine overshoot below_value
    linarith
  · have below_value : (lower : ℚ) * unit + 2 * unit = 4 * (mantissa * unit) := by
      have : (lower : ℚ) + 2 = 4 * mantissa := by exact_mod_cast lower_eq more
      linear_combination unit * this
    have wide : (mantissa : ℚ) * unit ≤ 2 * leastMantissa * unit := by
      gcongr
      exact_mod_cast bounded.le
    norm_num [leastMantissa] at wide
    linarith

end RoundingInterval

/-- Seventeen digits suffice: the fewest digits that read back lie in the rounding interval. -/
theorem holds_shortest {mantissa : Nat} (positive : 0 < mantissa)
    (bounded : mantissa < 2 * leastMantissa) (exponent : Int) :
    (RoundingInterval.ofDouble mantissa exponent).Holds (shortest mantissa exponent).value := by
  simp only [shortest]
  cases found : List.findSome? (RoundingInterval.ofDouble mantissa exponent).onGrid? _ with
  | none =>
    refine absurd ?_ (RoundingInterval.onGrid_seventeen positive bounded exponent)
    exact List.findSome?_eq_none_iff.1 found _ (List.mem_map.2 ⟨16, by simp, rfl⟩)
  | some decimal =>
    obtain ⟨_, _, onGrid⟩ := List.exists_of_findSome?_eq_some found
    exact RoundingInterval.holds_of_onGrid onGrid

/-! ## The rounding intervals share nothing -/

namespace RoundingInterval

variable {mantissa other : Nat} {exponent exponent' : Int} {number : ℚ}

theorem Holds.le (held : (ofDouble mantissa exponent).Holds number) :
    number ≤ (4 * mantissa + 2) * (2 : ℚ) ^ (exponent - 2) := by
  simpa [ofDouble] using held.le_upper

theorem le_lower (positive : 0 < mantissa) (exponent : Int) :
    (4 * mantissa - 2) * (2 : ℚ) ^ (exponent - 2) ≤
      (ofDouble mantissa exponent).lower * (2 : ℚ) ^ (exponent - 2) := by
  have bound : (4 * mantissa : ℚ) ≤ (ofDouble mantissa exponent).lower + 2 := by
    exact_mod_cast (lower_bounds positive exponent).1
  exact mul_le_mul_of_nonneg_right (by linarith) (by positivity)

theorem Holds.ge (positive : 0 < mantissa) (held : (ofDouble mantissa exponent).Holds number) :
    (4 * mantissa - 2) * (2 : ℚ) ^ (exponent - 2) ≤ number :=
  (le_lower positive exponent).trans held.lower_le

/-- The ends do not belong to the interval of an odd mantissa. -/
theorem Holds.lt_of_odd (odd : mantissa % 2 = 1)
    (held : (ofDouble mantissa exponent).Holds number) :
    number < (4 * mantissa + 2) * (2 : ℚ) ^ (exponent - 2) := by
  simp only [Holds, ofDouble, odd] at held
  simpa using held.2

theorem Holds.gt_of_odd (positive : 0 < mantissa) (odd : mantissa % 2 = 1)
    (held : (ofDouble mantissa exponent).Holds number) :
    (4 * mantissa - 2) * (2 : ℚ) ^ (exponent - 2) < number := by
  refine lt_of_le_of_lt (le_lower positive exponent) ?_
  simp only [Holds, ofDouble, odd] at held
  simpa [ofDouble] using held.1

/-- Two doubles of one binade round from different numbers: the ends that they share belong to the
even one. -/
theorem Holds.not_of_lt (positive : 0 < mantissa) (lt : mantissa < other)
    (held : (ofDouble mantissa exponent).Holds number) :
    ¬ (ofDouble other exponent).Holds number := by
  intro held'
  have unit : (0 : ℚ) < 2 ^ (exponent - 2) := by positivity
  have le := held.le
  have ge := held'.ge (by omega)
  have apart : (4 * mantissa + 2) * (2 : ℚ) ^ (exponent - 2) ≤
      (4 * other - 2) * (2 : ℚ) ^ (exponent - 2) := by
    have : (mantissa : ℚ) + 1 ≤ other := by exact_mod_cast lt
    gcongr
    linarith
  rcases Nat.mod_two_eq_zero_or_one mantissa with even | odd
  · rcases Nat.mod_two_eq_zero_or_one other with even' | odd'
    · have far : (mantissa : ℚ) + 2 ≤ other := by exact_mod_cast (by omega : mantissa + 2 ≤ other)
      have : (4 * mantissa + 2) * (2 : ℚ) ^ (exponent - 2) <
          (4 * other - 2) * (2 : ℚ) ^ (exponent - 2) :=
        mul_lt_mul_of_pos_right (by linarith) unit
      linarith
    · have := held'.gt_of_odd (by omega) odd'
      linarith
  · have := held.lt_of_odd odd
    linarith

/-- A number that rounds into one binade is below all that round into a later one: the greatest
mantissa is odd. -/
theorem Holds.not_of_binade_lt (normal : Normal mantissa exponent)
    (normal' : Normal other exponent') (lt : exponent < exponent')
    (held : (ofDouble mantissa exponent).Holds number) :
    ¬ (ofDouble other exponent').Holds number := by
  intro held'
  have unit : (0 : ℚ) < 2 ^ (exponent - 2) := by positivity
  have below : number < (8 * leastMantissa - 2) * (2 : ℚ) ^ (exponent - 2) := by
    rcases eq_or_ne (mantissa + 1) (2 * leastMantissa) with greatest | smaller
    · have odd : mantissa % 2 = 1 := by
        have : leastMantissa = 4503599627370496 := rfl
        omega
      have : (mantissa : ℚ) + 1 = 2 * leastMantissa := by exact_mod_cast greatest
      refine lt_of_lt_of_le (held.lt_of_odd odd) ?_
      gcongr
      linarith
    · have : (mantissa : ℚ) + 2 ≤ 2 * leastMantissa := by
        exact_mod_cast (by have := normal.bounded; omega : mantissa + 2 ≤ 2 * leastMantissa)
      exact lt_of_le_of_lt held.le (mul_lt_mul_of_pos_right (by linarith) unit)
  have later : -1074 < exponent' := lt_of_le_of_lt normal.least_exponent lt
  have least : leastMantissa ≤ other :=
    not_lt.1 fun small => absurd (normal'.of_small small) (by omega)
  have above : (4 * leastMantissa - 1) * (2 : ℚ) ^ (exponent' - 2) ≤ number := by
    have : 4 * leastMantissa ≤ (ofDouble other exponent').lower + 1 := by
      simp only [ofDouble]
      split <;> omega
    have : (4 * leastMantissa : ℚ) ≤ (ofDouble other exponent').lower + 1 := by exact_mod_cast this
    refine le_trans ?_ held'.lower_le
    exact mul_le_mul_of_nonneg_right (by linarith) (by positivity)
  have doubled : 2 * (2 : ℚ) ^ (exponent - 2) ≤ 2 ^ (exponent' - 2) := by
    rw [← zpow_one_add₀ (by norm_num)]
    exact zpow_le_zpow_right₀ (by norm_num) (by omega)
  have : (4 * leastMantissa - 1) * (2 * (2 : ℚ) ^ (exponent - 2)) ≤
      (4 * leastMantissa - 1) * (2 : ℚ) ^ (exponent' - 2) :=
    mul_le_mul_of_nonneg_left doubled (by norm_num [leastMantissa])
  linarith

/-- A number rounds to one double only. -/
theorem Holds.unique (normal : Normal mantissa exponent) (normal' : Normal other exponent')
    (held : (ofDouble mantissa exponent).Holds number)
    (held' : (ofDouble other exponent').Holds number) :
    mantissa = other ∧ exponent = exponent' := by
  rcases lt_trichotomy exponent exponent' with lt | rfl | gt
  · exact absurd held' (held.not_of_binade_lt normal normal' lt)
  · rcases lt_trichotomy mantissa other with lt | same | gt
    · exact absurd held' (held.not_of_lt normal.positive lt)
    · exact ⟨same, rfl⟩
    · exact absurd held (held'.not_of_lt normal'.positive gt)
  · exact absurd held (held'.not_of_binade_lt normal' normal gt)

end RoundingInterval

/-- A double is told from the number that its fewest digits write. -/
theorem shortest_inj {mantissa other : Nat} {exponent exponent' : Int}
    (normal : Normal mantissa exponent) (normal' : Normal other exponent')
    (same : (shortest mantissa exponent).value = (shortest other exponent').value) :
    mantissa = other ∧ exponent = exponent' :=
  (holds_shortest normal.positive normal.bounded exponent).unique normal normal'
    (same ▸ holds_shortest normal'.positive normal'.bounded exponent')

theorem shortest_pos {mantissa : Nat} {exponent : Int} (normal : Normal mantissa exponent) :
    0 < (shortest mantissa exponent).value := by
  have one : (1 : ℚ) ≤ mantissa := by exact_mod_cast normal.positive
  refine lt_of_lt_of_le (mul_pos ?_ (by positivity))
    ((holds_shortest normal.positive normal.bounded exponent).ge normal.positive)
  linarith

end TablePipeline.Number
