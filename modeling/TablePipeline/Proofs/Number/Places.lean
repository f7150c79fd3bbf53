import Mathlib
import TablePipeline.Proofs.Number.Notation

/-! # One place for one number

Doubles are compared through their places, and they are told apart by their representatives. Both come
to the same: the mantissa and the exponent of a double can be read off the number of units that it
stands for, so that two doubles have one place exactly when they have one representative.
-/

namespace TablePipeline.Number

open Float.Model (UnpackedFloat)

/-- Only a place compares equal to itself. -/
theorem Position.order_eq_eq {place other : Position} : place.order other = .eq ↔ place = other := by
  rw [order, Ordering.then_eq_eq, compare_eq_iff_eq, compare_eq_iff_eq]
  cases place <;> cases other <;> simp [region, offset]

/-- With a greater exponent, the mantissa of a double is full, and the number is greater. -/
theorem Normal.units_lt {mantissa other : Nat} {exponent exponent' : Int}
    (normal : Normal mantissa exponent) (normal' : Normal other exponent')
    (less : exponent < exponent') :
    mantissa <<< (exponent + unitExponent).toNat < other <<< (exponent' + unitExponent).toNat := by
  have least := normal.least_exponent
  have full : leastMantissa ≤ other := by
    by_contra small
    have atLeast := normal'.of_small (by omega)
    omega
  have split : (exponent' + unitExponent).toNat =
      (exponent + unitExponent).toNat + (exponent' - exponent).toNat := by
    simp only [unitExponent]
    omega
  have further : 2 ^ 1 ≤ 2 ^ (exponent' - exponent).toNat := by
    refine Nat.pow_le_pow_right (by decide) ?_
    omega
  rw [Nat.shiftLeft_eq, Nat.shiftLeft_eq, split, Nat.pow_add, Nat.mul_comm (2 ^ _), ← Nat.mul_assoc]
  refine Nat.mul_lt_mul_of_pos_right ?_ (Nat.two_pow_pos _)
  calc
    mantissa < leastMantissa * 2 := by
      have bounded := normal.bounded
      omega
    _ ≤ other * 2 ^ (exponent' - exponent).toNat := Nat.mul_le_mul full further

/-- Mantissas and exponents of doubles are told by the units that they stand for. -/
theorem Normal.eq_of_units {mantissa other : Nat} {exponent exponent' : Int}
    (normal : Normal mantissa exponent) (normal' : Normal other exponent')
    (same : mantissa <<< (exponent + unitExponent).toNat =
      other <<< (exponent' + unitExponent).toNat) :
    mantissa = other ∧ exponent = exponent' := by
  rcases lt_trichotomy exponent exponent' with less | rfl | more
  · exact absurd same (normal.units_lt normal' less).ne
  · refine ⟨?_, rfl⟩
    rw [Nat.shiftLeft_eq, Nat.shiftLeft_eq] at same
    exact Nat.eq_of_mul_eq_mul_right (Nat.two_pow_pos _) same
  · exact absurd same (normal'.units_lt normal more).ne'

/-- The signed value of a positive magnitude has its sign and its magnitude. -/
theorem signed_inj {sign sign' : UnpackedFloat.Sign} {magnitude other : Nat} (positive : 0 < magnitude)
    (positive' : 0 < other) (same : signed sign magnitude = signed sign' other) :
    sign = sign' ∧ magnitude = other := by
  cases sign <;> cases sign' <;> simp only [signed] at same <;> first
    | exact ⟨rfl, by omega⟩
    | omega

/-- The place of an unpacked double. -/
def place : UnpackedFloat → Position
  | .notANumber => .nan
  | .infinity .positive => .posInf
  | .infinity .negative => .negInf
  | .zero _ => .finite 0
  | .finite sign mantissa exponent _ =>
    .finite (signed sign (mantissa <<< (exponent + unitExponent).toNat))

theorem ofFloat_eq_place (value : Float) : ofFloat value = place value.toModel.unpack := rfl

/-- Is an unpacked double one of the two zeros? -/
def IsZero (unpacked : UnpackedFloat) : Prop :=
  ∃ sign, unpacked = .zero sign

theorem units_pos {mantissa : Nat} (positive : 0 < mantissa) (exponent : Int) :
    0 < mantissa <<< (exponent + unitExponent).toNat := by
  rw [Nat.shiftLeft_eq]
  exact Nat.mul_pos positive (Nat.two_pow_pos _)

/-- Unpacked doubles that have one place are the same, unless both are zeros. -/
theorem place_inj {unpacked unpacked' : UnpackedFloat} (representable : Representable unpacked)
    (representable' : Representable unpacked') (same : place unpacked = place unpacked') :
    unpacked = unpacked' ∨ (IsZero unpacked ∧ IsZero unpacked') := by
  have nonzero {sign : UnpackedFloat.Sign} {mantissa : Nat} {exponent : Int}
      (positive : 0 < mantissa) :
      signed sign (mantissa <<< (exponent + unitExponent).toNat) ≠ 0 := by
    have := units_pos positive exponent
    cases sign <;> simp only [signed] <;> omega
  cases unpacked with
  | notANumber =>
    cases unpacked' with
    | notANumber => exact .inl rfl
    | infinity sign => cases sign <;> cases same
    | zero | finite => cases same
  | infinity sign =>
    cases unpacked' with
    | infinity sign' => cases sign <;> cases sign' <;> first | exact .inl rfl | cases same
    | notANumber | zero | finite => cases sign <;> cases same
  | zero sign =>
    cases unpacked' with
    | zero sign' => exact .inr ⟨⟨sign, rfl⟩, sign', rfl⟩
    | infinity sign' => cases sign' <;> cases same
    | notANumber => cases same
    | finite _ _ _ positive => exact absurd (Position.finite.inj same).symm (nonzero positive)
  | finite sign mantissa exponent positive =>
    cases unpacked' with
    | notANumber => cases same
    | infinity sign' => cases sign' <;> cases same
    | zero => exact absurd (Position.finite.inj same) (nonzero positive)
    | finite sign' other exponent' positive' =>
      obtain ⟨rfl, units⟩ := signed_inj (units_pos positive exponent) (units_pos positive' exponent')
        (Position.finite.inj same)
      obtain ⟨rfl, rfl⟩ := Normal.eq_of_units representable representable' units
      exact .inl rfl

/-- Two doubles have the same representative if they are equal or both are no numbers. -/
theorem canonical_inj {value other : Float} :
    canonical value = canonical other ↔ value == other ∨ value.isNaN ∧ other.isNaN := by
  have literal : (0.0 : Float) = 0 := by decide +kernel
  have zeros : (0 : Float) ≠ -0 := by decide +kernel
  have zero : (0 : Float) ≠ .nan := by decide +kernel
  have minus : (-0 : Float) ≠ .nan := by decide +kernel
  simp only [canonical, literal, Float.isNaN_eq_decide_eq_nan, decide_eq_true_eq,
    Float.beq_iff_ne_nan_and_eq]
  -- that the two zeros and `nan` are three values is all that matters from here on
  generalize (-0 : Float) = negative at *
  generalize (0 : Float) = positive at *
  generalize Float.nan = nan at *
  clear literal
  grind

/-- Doubles have one place exactly when they have one representative. -/
theorem ofFloat_eq_ofFloat {value other : Float} :
    ofFloat value = ofFloat other ↔ canonical value = canonical other := by
  have zeros : (0 : Float).toModel.unpack = .zero .positive ∧
      (-0 : Float).toModel.unpack = .zero .negative := ⟨rfl, rfl⟩
  have isZero {value : Float} (zero : IsZero value.toModel.unpack) : value = 0 ∨ value = -0 := by
    obtain ⟨sign, unpacked⟩ := zero
    cases sign with
    | positive => exact .inl (unpack_injective (unpacked.trans zeros.1.symm))
    | negative => exact .inr (unpack_injective (unpacked.trans zeros.2.symm))
  have ofZeros : ofFloat 0 = ofFloat (-0) := by decide +kernel
  have canonicalZeros : canonical 0 = canonical (-0) := by decide +kernel
  constructor
  · intro same
    rw [ofFloat_eq_place, ofFloat_eq_place] at same
    rcases place_inj (representable_unpack _) (representable_unpack _) same with
      unpacked | ⟨zero, zero'⟩
    · rw [unpack_injective unpacked]
    · rcases isZero zero with rfl | rfl <;> rcases isZero zero' with rfl | rfl
      · rfl
      · exact canonicalZeros
      · exact canonicalZeros.symm
      · rfl
  · intro same
    rcases canonical_inj.mp same with equal | ⟨nan, nan'⟩
    · obtain ⟨_, _, rfl | ⟨rfl, rfl⟩ | ⟨rfl, rfl⟩⟩ := Float.beq_iff_ne_nan_and_eq.mp equal
      · rfl
      · exact ofZeros
      · exact ofZeros.symm
    · rw [Float.isNaN_eq_decide_eq_nan, decide_eq_true_eq] at nan nan'
      rw [nan, nan']

end TablePipeline.Number
