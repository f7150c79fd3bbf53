import Mathlib
import TablePipeline.Config
import TablePipeline.Equivalence
import TablePipeline.Proofs.Number.Rounding

/-! # When two values of a metric agree

Doubles agree within a relative tolerance. As soon as one of two doubles is infinite, so is the
magnitude that the tolerance refers to, and the product of both bounds every distance: unless the
tolerance is zero, an infinity agrees with all numbers.
-/

namespace TablePipeline

namespace Number

open Float.Model (Format UnpackedFloat)
open Float.Model.UnpackedFloat (Sign)

/-! ## Doubles by their parts -/

/-- A finite number is packed into a number. -/
theorem unpack_pack_finite_ne {sign : Sign} {mantissa : Nat} {exponent : Int}
    (positive : 0 < mantissa) :
    (Float.Model.pack (.finite sign mantissa exponent positive)).unpack ≠ .notANumber := by
  -- the packed exponent is not the one of infinities and of what is no number
  have below {biased : Nat} (small : ¬ 2 ^ Format.binary64.exponentBits ≤ biased + 1) :
      BitVec.ofNat Format.binary64.exponentBits biased ≠
        -BitVec.ofNat Format.binary64.exponentBits 1 := by
    intro same
    have value := congrArg BitVec.toNat same
    change biased % 2048 = 2047 at value
    change ¬ 2048 ≤ biased + 1 at small
    omega
  have isNumber {biased : BitVec Format.binary64.exponentBits}
      (below : biased ≠ -BitVec.ofNat Format.binary64.exponentBits 1)
      (fraction : BitVec Format.binary64.mantissaBitsWithoutImplicit) :
      UnpackedFloat.unpack .binary64
        (UnpackedFloat.packComponents .binary64 sign biased fraction) ≠
        .notANumber := by
    rw [UnpackedFloat.unpack]
    dsimp only
    rw [UnpackedFloat.unpackExponent_packComponents, if_neg below]
    split
    · split <;> simp
    · simp
  change UnpackedFloat.unpack .binary64 (UnpackedFloat.pack .binary64 _) ≠ _
  rw [UnpackedFloat.pack]
  dsimp only
  split
  · change (Float.Model.pack (.infinity sign)).unpack ≠ _
    rw [unpack_pack_infinity]
    simp
  · rename_i small
    split
    · exact isNumber (below small) _
    · exact isNumber (by decide) _

/-- Is a double one of the two infinities? -/
def Infinite (value : Float) : Prop :=
  ∃ sign, value.toModel.unpack = .infinity sign

/-- Is a double the infinity above all numbers? -/
def Unbounded (value : Float) : Prop :=
  value.toModel.unpack = .infinity .positive

variable {a b tolerance : Float}

theorem isNaN_eq_false : a.isNaN = false ↔ a.toModel.unpack ≠ .notANumber := by
  change a.toModel.unpack.isNaN = false ↔ _
  cases a.toModel.unpack <;> simp [UnpackedFloat.isNaN]

theorem isInf_eq_true : a.isInf = true ↔ Infinite a := by
  change a.toModel.unpack.isInf = true ↔ ∃ sign, a.toModel.unpack = .infinity sign
  cases a.toModel.unpack <;> simp [UnpackedFloat.isInf]

/-- A double is finite, infinite, or no number. -/
theorem isFinite_eq_true : a.isFinite = true ↔ a.isNaN = false ∧ ¬ Infinite a := by
  change a.toModel.unpack.isFinite = true ↔
    a.toModel.unpack.isNaN = false ∧ ¬ ∃ sign, a.toModel.unpack = .infinity sign
  cases a.toModel.unpack <;> simp [UnpackedFloat.isFinite, UnpackedFloat.isNaN]

/-! ## Arithmetic with infinities -/

theorem isNaN_abs (number : a.isNaN = false) : a.abs.isNaN = false := by
  rw [isNaN_eq_false] at number ⊢
  change (Float.Model.pack a.toModel.unpack.abs).unpack ≠ _
  cases unpacked : a.toModel.unpack with
  | notANumber => exact absurd unpacked number
  | infinity sign => simp [UnpackedFloat.abs, unpack_pack_infinity]
  | zero sign => simp [UnpackedFloat.abs, unpack_pack_zero]
  | finite sign mantissa exponent positive => exact unpack_pack_finite_ne positive

theorem Infinite.unbounded_abs (infinite : Infinite a) : Unbounded a.abs := by
  obtain ⟨sign, unpacked⟩ := infinite
  change (Float.Model.pack a.toModel.unpack.abs).unpack = _
  rw [unpacked]
  exact unpack_pack_infinity .positive

/-- The distance of an infinity from another number is infinite. -/
theorem unbounded_distance (infinite : Infinite a ∨ Infinite b) (number : a.isNaN = false)
    (number' : b.isNaN = false) (different : (a == b) = false) : Unbounded (a - b).abs := by
  refine Infinite.unbounded_abs ?_
  rw [isNaN_eq_false] at number number'
  rw [beq_eq] at different
  have unpacked {sign : Sign}
      (infinity : UnpackedFloat.sub .binary64 a.toModel.unpack b.toModel.unpack = .infinity sign) :
      Infinite (a - b) := by
    refine ⟨sign, ?_⟩
    change (Float.Model.pack (.sub .binary64 a.toModel.unpack b.toModel.unpack)).unpack = _
    rw [infinity, unpack_pack_infinity]
  revert number number' different unpacked infinite
  simp only [Infinite]
  cases a.toModel.unpack with
  | notANumber => simp
  | infinity sign =>
    cases b.toModel.unpack with
    | notANumber => simp
    | infinity sign' =>
      intro _ _ _ different unpacked
      cases sign with
      | positive =>
        cases sign' with
        | positive => exact absurd different (by decide)
        | negative => exact unpacked rfl
      | negative =>
        cases sign' with
        | positive => exact unpacked rfl
        | negative => exact absurd different (by decide)
    | zero sign' => exact fun _ _ _ _ unpacked => unpacked rfl
    | finite sign' => exact fun _ _ _ _ unpacked => unpacked rfl
  | zero sign =>
    cases b.toModel.unpack with
    | infinity sign' => exact fun _ _ _ _ unpacked => unpacked rfl
    | notANumber | zero | finite => simp
  | finite sign =>
    cases b.toModel.unpack with
    | infinity sign' => exact fun _ _ _ _ unpacked => unpacked rfl
    | notANumber | zero | finite => simp

/-- The larger of the magnitudes of an infinity and another number is infinite. -/
theorem unbounded_larger (infinite : Infinite a ∨ Infinite b) (number : a.isNaN = false) :
    Unbounded (larger a.abs b.abs) := by
  have number := isNaN_eq_false.mp (isNaN_abs number)
  rw [larger]
  rcases infinite with infinite | infinite
  · have above := infinite.unbounded_abs
    have notLess : ¬ a.abs < b.abs := by
      rw [lt_iff, above]
      cases b.abs.toModel.unpack with
      | infinity sign => cases sign <;> decide
      | notANumber | zero | finite => simp [UnpackedFloat.lt, UnpackedFloat.compare]
    rwa [if_neg notLess]
  · have above := infinite.unbounded_abs
    split
    · exact above
    · rename_i notLess
      rw [lt_iff, above] at notLess
      revert notLess number
      rw [Unbounded]
      cases a.abs.toModel.unpack with
      | infinity sign =>
        cases sign with
        | positive => exact fun _ _ => rfl
        | negative => exact fun _ notLess => absurd (by decide) notLess
      | notANumber | zero | finite => simp [UnpackedFloat.lt, UnpackedFloat.compare]

/-- A tolerance leaves an infinity as it is, unless it is zero. -/
theorem unpack_bound {value : Float} (finite : tolerance.isFinite = true)
    (nonnegative : 0.0 ≤ tolerance) (unbounded : Unbounded value) :
    (tolerance * value).toModel.unpack =
      if 0.0 < tolerance then .infinity .positive else .notANumber := by
  have zero : (0.0 : Float).toModel.unpack = .zero .positive := by rfl
  change (Float.Model.pack
    (.mul .binary64 tolerance.toModel.unpack value.toModel.unpack)).unpack = _
  rw [unbounded]
  simp only [le_iff, lt_iff, zero] at nonnegative ⊢
  change tolerance.toModel.unpack.isFinite = true at finite
  revert finite nonnegative
  cases tolerance.toModel.unpack with
  | notANumber | infinity => simp [UnpackedFloat.isFinite]
  | zero sign => simp [UnpackedFloat.mul, UnpackedFloat.lt, UnpackedFloat.compare, unpack_pack_nan]
  | finite sign mantissa exponent positive =>
    cases sign with
    | positive => exact fun _ _ => unpack_pack_infinity .positive
    | negative => simp [UnpackedFloat.le, UnpackedFloat.compare]

/-- Where one of two different numbers is infinite, they agree unless the tolerance is zero. -/
theorem close_of_infinite (finite : tolerance.isFinite = true) (nonnegative : 0.0 ≤ tolerance)
    (infinite : Infinite a ∨ Infinite b) (number : a.isNaN = false) (number' : b.isNaN = false)
    (different : (a == b) = false) : close tolerance a b = true ↔ 0.0 < tolerance := by
  have distance := unbounded_distance infinite number number' different
  have bound := unpack_bound finite nonnegative (unbounded_larger infinite number)
  rw [close, number, number', different, if_neg (by simp), Bool.false_or, decide_eq_true_eq, le_iff,
    distance, bound]
  split
  · rename_i positive
    exact iff_of_true (by decide) positive
  · rename_i zero
    exact iff_of_false (by decide) zero

/-- What is no number is close to what is no number, and to nothing else. -/
theorem close_of_isNaN (noNumber : a.isNaN = true ∨ b.isNaN = true) :
    close tolerance a b = true ↔ a.isNaN = true ∧ b.isNaN = true := by
  rw [close, if_pos (by simpa using noNumber), Bool.and_eq_true]

/-- Two finite numbers are close if they are equal, or if their distance is within the tolerance. -/
theorem close_of_number (number : a.isNaN = false) (number' : b.isNaN = false) :
    close tolerance a b = true ↔
      (a == b) = true ∨ (a - b).abs ≤ tolerance * larger a.abs b.abs := by
  rw [close, number, number', if_neg (by simp), Bool.or_eq_true, decide_eq_true_eq]

end Number

/-- The tolerance of settings that are admitted is finite and not negative. -/
theorem RunConfig.tolerance_of_check {config : RunConfig} (admitted : config.check = .ok ()) :
    config.tolerance.isFinite = true ∧ 0.0 ≤ config.tolerance := by
  unfold check at admitted
  split at admitted
  · cases admitted
  · split at admitted
    · cases admitted
    · rename_i proper
      simpa using proper

namespace Cell

open Number

variable {config : RunConfig} {expected found : Cell} {a b tolerance : Float}

/-- As soon as one of two numbers is a double, both are compared as doubles. -/
theorem agrees_eq_close (isNumber : expected.asFloat? = some a)
    (isNumber' : found.asFloat? = some b) (mixed : expected.type? = some .float ∨ found.type? = some .float) :
    expected.agrees tolerance found = close tolerance a b := by
  cases expected with
  | null | bool | text => cases isNumber
  | int value =>
    cases isNumber
    cases found with
    | null | bool | text => cases isNumber'
    | int value' => simp [type?] at mixed
    | float value' =>
      cases isNumber'
      rfl
  | float value =>
    cases isNumber
    cases found with
    | null | bool | text => cases isNumber'
    | int value' | float value' =>
      cases isNumber'
      rfl

/-- Two numbers, one of them a double, agree if they are equal, if both are no numbers, if both are
finite and their distance is within the tolerance, or if one of them is infinite and the tolerance is
not zero. -/
theorem agrees_iff_of_admitted (admitted : config.check = .ok ())
    (isNumber : expected.asFloat? = some a) (isNumber' : found.asFloat? = some b)
    (mixed : expected.type? = some .float ∨ found.type? = some .float) :
    expected.agrees config.tolerance found = true ↔
      (a.isNaN = true ∧ b.isNaN = true) ∨ (a == b) = true ∨
        (a.isFinite = true ∧ b.isFinite = true ∧
          (a - b).abs ≤ config.tolerance * larger a.abs b.abs) ∨
        (a.isNaN = false ∧ b.isNaN = false ∧ (a.isInf = true ∨ b.isInf = true) ∧
          0.0 < config.tolerance) := by
  obtain ⟨finite, nonnegative⟩ := RunConfig.tolerance_of_check admitted
  rw [agrees_eq_close isNumber isNumber' mixed]
  by_cases noNumber : a.isNaN = true ∨ b.isNaN = true
  · have different : (a == b) = false := by
      rw [Bool.eq_false_iff]
      intro equal
      obtain ⟨number, number', _⟩ := Float.beq_iff_ne_nan_and_eq.mp equal
      simp only [Float.isNaN_eq_decide_eq_nan, decide_eq_true_eq] at noNumber
      exact noNumber.elim number number'
    rw [close_of_isNaN noNumber, different, isFinite_eq_true, isFinite_eq_true]
    grind
  · obtain ⟨number, number'⟩ : a.isNaN = false ∧ b.isNaN = false := by
      simpa only [not_or, Bool.not_eq_true] using noNumber
    by_cases infinite : Infinite a ∨ Infinite b
    · cases different : a == b with
      | true => simp only [close_of_number number number', different, true_or, or_true]
      | false =>
        rw [close_of_infinite finite nonnegative infinite number number' different]
        rw [isFinite_eq_true, isFinite_eq_true, isInf_eq_true, isInf_eq_true]
        grind
    · rw [close_of_number number number', isFinite_eq_true, isFinite_eq_true, isInf_eq_true,
        isInf_eq_true]
      grind

/-- With the usual tolerance, three agrees with a double that is a little larger. -/
theorem agrees_nearThree : ∃ config : RunConfig, config.check = .ok () ∧
    (int 3).agrees config.tolerance (float 3.000000001) = true := by
  refine ⟨{}, rfl, ?_⟩
  have within : (3.0 : Float).isFinite = true ∧ (3.000000001 : Float).isFinite = true ∧
      (3.0 - 3.000000001 : Float).abs ≤
        1e-9 * larger (3.0 : Float).abs (3.000000001 : Float).abs := by
    decide +kernel
  have widened : (int 3).asFloat? = some 3.0 := by decide +kernel
  exact (agrees_iff_of_admitted rfl widened rfl (.inr rfl)).mpr (.inr (.inr (.inl within)))

/-- With the usual tolerance, a sum that overflowed agrees with one. -/
theorem agrees_overflowed : ∃ config : RunConfig, ∃ sum : Float, config.check = .ok () ∧
    (float sum).agrees config.tolerance (float 1.0) = true ∧ sum.isNaN = false ∧
      (sum == 1.0) = false ∧ sum.isFinite = false := by
  refine ⟨{}, 1e308 + 1e308, rfl, ?_⟩
  decide +kernel

end Cell

end TablePipeline
