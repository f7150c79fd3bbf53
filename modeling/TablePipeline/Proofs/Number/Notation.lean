import Mathlib
import TablePipeline.Number.Decimal
import TablePipeline.Number.Notation
import TablePipeline.Proofs.Number.Shortest
import TablePipeline.Proofs.Text.Reading

/-! # The written forms read back

The text of a literal is a decimal that reads back as the fewest digits of the double, hence two
doubles with one text are the same. Every such text is one word, and one that no integer has.
-/

namespace TablePipeline.Number

/-! ## Digits -/

theorem ofDigits_eq_ofDigitChars (digits : List Char) :
    ofDigits digits = Nat.ofDigitChars 10 digits 0 := by
  simp only [ofDigits, Nat.ofDigitChars_eq_foldl, Nat.mul_comm]

@[simp]
theorem ofDigits_digitText (number : Nat) : ofDigits (digitText number) = number := by
  rw [ofDigits_eq_ofDigitChars, digitText, Nat.ofDigitChars_ten_toDigits]

@[simp]
theorem ofDigits_append_zeros (digits : List Char) (count : Nat) :
    ofDigits (digits ++ List.replicate count '0') = ofDigits digits * 10 ^ count := by
  simp only [ofDigits_eq_ofDigitChars, Nat.ofDigitChars_append, Nat.ofDigitChars_replicate_zero,
    Nat.mul_comm]

@[simp]
theorem ofDigits_zeros_append (count : Nat) (digits : List Char) :
    ofDigits (List.replicate count '0' ++ digits) = ofDigits digits := by
  simp only [ofDigits_eq_ofDigitChars, Nat.ofDigitChars_append, Nat.ofDigitChars_replicate_zero,
    Nat.mul_zero]

/-- A number is told from its digits. -/
theorem digitText_injective : Function.Injective digitText := by
  intro number other same
  rw [← ofDigits_digitText number, same, ofDigits_digitText]

theorem isDigit_of_mem_digitText {number : Nat} {char : Char} (member : char ∈ digitText number) :
    char.isDigit = true :=
  Nat.isDigit_of_mem_toDigits (by decide) (by decide) member

theorem digitText_ne_nil (number : Nat) : digitText number ≠ [] :=
  Nat.toDigits_ne_nil

/-- The text of an integer: a minus where it is negative, then its digits. -/
theorem toList_toString (value : Int) :
    (toString value).toList = (if value < 0 then ['-'] else []) ++ digitText value.natAbs := by
  cases value with
  | ofNat number =>
    rw [if_neg (by simp)]
    exact Nat.toList_repr
  | negSucc number =>
    rw [if_pos (Int.negSucc_lt_zero number)]
    change ("-" ++ Nat.repr (number + 1)).toList = _
    rw [String.toList_append, Nat.toList_repr]
    rfl

/-- The text of an integer consists of digits and of a minus. -/
theorem digit_or_minus {value : Int} {char : Char} (member : char ∈ (toString value).toList) :
    char.isDigit = true ∨ char = '-' := by
  rw [toList_toString, List.mem_append] at member
  rcases member with minus | digit
  · split at minus
    · exact .inr (List.mem_singleton.mp minus)
    · cases minus
  · exact .inl (isDigit_of_mem_digitText digit)

/-! ## Reading a decimal -/

/-- The decimal that a text without a sign writes, before it is rounded. -/
def scientific? (text : List Char) : Option Decimal :=
  let whole := text.takeWhile Char.isDigit
  let rest := text.dropWhile Char.isDigit
  let (fraction, tail) := match rest with
    | '.' :: rest => (rest.takeWhile Char.isDigit, rest.dropWhile Char.isDigit)
    | rest => ([], rest)
  if whole.isEmpty && fraction.isEmpty then none
  else (exponent? tail).map fun exponent =>
    ⟨ofDigits (whole ++ fraction), exponent - fraction.length⟩

theorem ofDecimal?_eq_map (text : List Char) :
    ofDecimal? text = (scientific? text).map fun decimal =>
      ofScientific decimal.digits decimal.exponent := by
  simp only [ofDecimal?, scientific?, apply_ite (Option.map _), Option.map_none, Option.map_map]
  rfl

/-- Does a text go on with neither a digit nor a point? -/
def EndsDigits (rest : List Char) : Prop :=
  ∀ char ∈ rest.head?, char.isDigit = false ∧ char ≠ '.'

section Reading

variable {whole fraction tail : List Char}

theorem takeWhile_digits (tail : List Char) (digits : ∀ char ∈ whole, char.isDigit = true)
    (ends : ∀ char ∈ tail.head?, char.isDigit = false) :
    (whole ++ tail).takeWhile Char.isDigit = whole ∧
      (whole ++ tail).dropWhile Char.isDigit = tail := by
  have stop : tail.takeWhile Char.isDigit = [] ∧ tail.dropWhile Char.isDigit = tail := by
    cases tail with
    | nil => simp
    | cons char rest => simp [ends char rfl]
  rw [List.takeWhile_append_of_pos digits, List.dropWhile_append_of_pos digits, stop.1, stop.2,
    List.append_nil]
  exact ⟨rfl, rfl⟩

theorem scientific?_point (tail : List Char)
    (digits : ∀ char ∈ whole ++ fraction, char.isDigit = true) (nonempty : whole ≠ [])
    (ends : ∀ char ∈ tail.head?, char.isDigit = false) :
    scientific? (whole ++ '.' :: (fraction ++ tail)) = (exponent? tail).map fun exponent =>
      ⟨ofDigits (whole ++ fraction), exponent - fraction.length⟩ := by
  have first := takeWhile_digits ('.' :: (fraction ++ tail))
    (fun char member => digits char (List.mem_append_left _ member)) (by rintro _ ⟨⟩; decide)
  have second := takeWhile_digits tail
    (fun char member => digits char (List.mem_append_right _ member)) ends
  simp [scientific?, first.1, first.2, second.1, second.2, nonempty]

theorem scientific?_fraction (digits : ∀ char ∈ whole ++ fraction, char.isDigit = true)
    (nonempty : whole ≠ []) :
    scientific? (whole ++ '.' :: fraction) =
      some ⟨ofDigits (whole ++ fraction), -fraction.length⟩ := by
  have read := scientific?_point [] digits nonempty (by rintro _ ⟨⟩)
  rw [List.append_nil] at read
  rw [read, exponent?, Option.map_some, Int.zero_sub]

theorem scientific?_whole (digits : ∀ char ∈ whole, char.isDigit = true)
    (nonempty : whole ≠ []) (ends : EndsDigits tail) :
    scientific? (whole ++ tail) = (exponent? tail).map fun exponent =>
      ⟨ofDigits whole, exponent⟩ := by
  have first := takeWhile_digits tail digits fun char member => (ends char member).1
  simp only [scientific?, first.1, first.2]
  split
  · rename_i rest
    exact absurd rfl (ends '.' rfl).2
  · simp [nonempty]

end Reading

/-- The exponent behind its mark is read back. -/
theorem exponent?_toString (exponent : Int) :
    exponent? ('e' :: (toString exponent).toList) = some exponent := by
  have digits : ∀ char ∈ digitText exponent.natAbs, char.isDigit = true :=
    fun _ => isDigit_of_mem_digitText
  rw [toList_toString]
  generalize written : digitText exponent.natAbs = text at digits
  have value : ofDigits text = exponent.natAbs := by rw [← written, ofDigits_digitText]
  cases text with
  | nil => exact absurd written (digitText_ne_nil _)
  | cons first rest =>
    have noMinus : first ≠ '-' := by
      rintro rfl
      exact absurd (digits '-' (.head _)) (by decide)
    have noPlus : first ≠ '+' := by
      rintro rfl
      exact absurd (digits '+' (.head _)) (by decide)
    have allDigits :
        ¬ ((first :: rest).isEmpty = true ∨ (!(first :: rest).all Char.isDigit) = true) := by
      simpa using digits
    split
    · simp only [List.cons_append, List.nil_append, exponent?, ne_eq, not_true_eq_false, false_and,
        if_false]
      rw [if_neg allDigits, if_pos trivial, value, Option.some_inj]
      omega
    · simp only [List.nil_append, exponent?, ne_eq, not_true_eq_false, false_and, if_false, noMinus,
        noPlus, List.cons.injEq, imp_false, not_false_eq_true, implies_true]
      rw [if_neg allDigits, if_neg (by decide), value, Option.some_inj]
      omega

/-! ## The significand -/

theorem trailing_zeros (text : List Char) :
    ∃ count, text = (text.reverse.dropWhile (· == '0')).reverse ++ List.replicate count '0' := by
  refine ⟨(text.reverse.takeWhile (· == '0')).length, ?_⟩
  have zeros : text.reverse.takeWhile (· == '0') =
      List.replicate (text.reverse.takeWhile (· == '0')).length '0' :=
    List.eq_replicate_iff.2 ⟨rfl, fun char member => by simpa using List.mem_takeWhile_imp member⟩
  calc text
    _ = (text.reverse.takeWhile (· == '0') ++ text.reverse.dropWhile (· == '0')).reverse := by
      rw [List.takeWhile_append_dropWhile, List.reverse_reverse]
    _ = _ := by rw [zeros, List.reverse_append, List.reverse_replicate, List.length_replicate]

namespace Decimal

/-- Trailing zeros of the digits are left out of the significand, which keeps the value. -/
theorem significand_value (decimal : Decimal) :
    (ofDigits decimal.significand.1 : ℚ) *
      10 ^ (decimal.significand.2 + 1 - decimal.significand.1.length) = decimal.value := by
  obtain ⟨count, zeros⟩ := trailing_zeros (digitText decimal.digits)
  have digits := congrArg ofDigits zeros
  have length := congrArg List.length zeros
  rw [ofDigits_digitText, ofDigits_append_zeros] at digits
  rw [List.length_append, List.length_replicate] at length
  simp only [significand, value]
  generalize ((digitText decimal.digits).reverse.dropWhile (· == '0')).reverse = kept at *
  cases kept with
  | nil =>
    have : decimal.digits = 0 := by simpa [ofDigits] using digits
    simp [ofDigits, this]
  | cons first rest =>
    simp only [List.isEmpty_cons, Bool.false_eq_true, if_false]
    have shift : decimal.exponent + ((digitText decimal.digits).length - 1 : ℤ) + 1 -
        ((first :: rest).length : ℤ) = count + decimal.exponent := by
      rw [length]
      push_cast
      ring
    rw [shift, zpow_add₀ (by norm_num), zpow_natCast, digits]
    push_cast
    ring

theorem significand_digits (decimal : Decimal) :
    ∀ char ∈ decimal.significand.1, char.isDigit = true := by
  intro char member
  simp only [significand] at member
  split at member
  · rw [List.mem_singleton] at member
    rw [member]
    decide
  · rw [List.mem_reverse] at member
    exact isDigit_of_mem_digitText (List.mem_reverse.1 ((List.dropWhile_suffix _).mem member))

theorem significand_ne_nil (decimal : Decimal) : decimal.significand.1 ≠ [] := by
  simp only [significand]
  split
  · exact List.cons_ne_nil _ _
  · rename_i kept
    simpa using kept

end Decimal

section Magnitude

variable {digits : List Char}

theorem isDigit_zeros (count : Nat) : ∀ char ∈ List.replicate count '0', char.isDigit = true := by
  intro char member
  rw [List.eq_of_mem_replicate member]
  decide

theorem positionalText_of_neg {exponent : Int} (pointZero : Bool) (small : exponent < 0) :
    positionalText pointZero digits exponent =
      ['0'] ++ '.' :: (List.replicate (-exponent - 1).toNat '0' ++ digits) := by
  rw [positionalText, if_pos small]
  rfl

/-- At least one digit stands before the point and after it. -/
theorem positionalText_of_nonneg {exponent : Int} (large : 0 ≤ exponent) :
    positionalText true digits exponent =
      if digits.length ≤ exponent.toNat + 1 then
        digits ++ List.replicate (exponent.toNat + 1 - digits.length) '0' ++ '.' :: ['0']
      else digits.take (exponent.toNat + 1) ++ '.' :: digits.drop (exponent.toNat + 1) := by
  rw [positionalText, if_neg (not_lt.2 large)]
  rcases le_or_gt digits.length (exponent.toNat + 1) with fits | long
  · rw [if_pos fits]
    have length : (digits ++ List.replicate (exponent.toNat + 1 - digits.length) '0').length ≤
        exponent.toNat + 1 := by
      rw [List.length_append, List.length_replicate]
      omega
    simp only [List.take_of_length_le length, List.drop_eq_nil_of_le length]
    rfl
  · have noZeros : exponent.toNat + 1 - digits.length = 0 := by omega
    have remains : (digits.drop (exponent.toNat + 1)).isEmpty = false := by
      rw [List.isEmpty_eq_false_iff, ne_eq, List.drop_eq_nil_iff]
      exact not_le.2 long
    rw [if_neg (not_le.2 long)]
    simp only [noZeros, List.replicate_zero, List.append_nil, remains, Bool.false_eq_true, if_false]

/-- A positional text is a point between digits, and these have the value of the significand. -/
theorem positionalText_eq (isDigit : ∀ char ∈ digits, char.isDigit = true)
    (nonempty : digits ≠ []) (exponent : Int) :
    ∃ whole fraction, positionalText true digits exponent = whole ++ '.' :: fraction ∧
      whole ≠ [] ∧ (∀ char ∈ whole ++ fraction, char.isDigit = true) ∧
      (ofDigits (whole ++ fraction) : ℚ) * 10 ^ (-(fraction.length : ℤ)) =
        ofDigits digits * 10 ^ (exponent + 1 - digits.length) := by
  rcases lt_or_ge exponent 0 with small | large
  · refine ⟨_, _, positionalText_of_neg true small, List.cons_ne_nil _ _, ?_, ?_⟩
    · exact List.forall_mem_append.2 ⟨isDigit_zeros 1,
        List.forall_mem_append.2 ⟨isDigit_zeros _, isDigit⟩⟩
    · have zeros (count : ℕ) : ['0'] ++ (List.replicate count '0' ++ digits) =
        List.replicate (count + 1) '0' ++ digits := rfl
      rw [zeros, ofDigits_zeros_append]
      congr 2
      simp only [List.length_append, List.length_replicate]
      omega
  · rw [positionalText_of_nonneg large]
    rcases le_or_gt digits.length (exponent.toNat + 1) with fits | long
    · rw [if_pos fits]
      refine ⟨_, _, rfl, by simp [nonempty], ?_, ?_⟩
      · exact List.forall_mem_append.2
          ⟨List.forall_mem_append.2 ⟨isDigit, isDigit_zeros _⟩, isDigit_zeros 1⟩
      · have zeros : digits ++ List.replicate (exponent.toNat + 1 - digits.length) '0' ++ ['0'] =
            digits ++ List.replicate (exponent.toNat + 1 - digits.length + 1) '0' := by
          rw [List.append_assoc, List.replicate_succ']
        rw [zeros, ofDigits_append_zeros]
        push_cast
        rw [mul_assoc, ← zpow_natCast, ← zpow_add₀ (by norm_num)]
        congr 2
        simp
        omega
    · rw [if_neg (not_le.2 long)]
      refine ⟨_, _, rfl, by simpa using nonempty, by rwa [List.take_append_drop], ?_⟩
      rw [List.take_append_drop]
      congr 2
      simp only [List.length_drop]
      omega

theorem scientific?_positionalText (isDigit : ∀ char ∈ digits, char.isDigit = true)
    (nonempty : digits ≠ []) (exponent : Int) :
    ∃ decimal, scientific? (positionalText true digits exponent) = some decimal ∧
      decimal.value = ofDigits digits * 10 ^ (exponent + 1 - digits.length) := by
  obtain ⟨whole, fraction, text, present, allDigits, value⟩ :=
    positionalText_eq isDigit nonempty exponent
  refine ⟨_, text ▸ scientific?_fraction allDigits present, ?_⟩
  exact value

theorem scientific?_exponentText (isDigit : ∀ char ∈ digits, char.isDigit = true)
    (nonempty : digits ≠ []) (exponent : Int) :
    ∃ decimal, scientific? (exponentText digits exponent) = some decimal ∧
      decimal.value = ofDigits digits * 10 ^ (exponent + 1 - digits.length) := by
  cases digits with
  | nil => exact absurd rfl nonempty
  | cons first rest =>
    have mark : EndsDigits ('e' :: (toString exponent).toList) := by
      rintro _ ⟨⟩
      decide
    cases rest with
    | nil =>
      have read := scientific?_whole isDigit nonempty mark
      rw [exponent?_toString, Option.map_some] at read
      exact ⟨_, read, by simp [Decimal.value]⟩
    | cons second rest =>
      have read := scientific?_point _ isDigit (List.cons_ne_nil first [])
        fun char member => (mark char member).1
      rw [exponent?_toString, Option.map_some] at read
      refine ⟨_, by simpa [exponentText] using read, ?_⟩
      simp only [Decimal.value]
      congr 2
      simp

end Magnitude

/-! ## The shape of a positive literal -/

/-- The text of a decimal that no integer has: it begins with a digit and has a point or an exponent
mark, and beside these and digits there is at most a minus. -/
structure Numeral (text : List Char) : Prop where
  begins : ∃ first rest, text = first :: rest ∧ first.isDigit = true
  marked : ∃ mark ∈ text, mark ∈ ['.', 'e']
  chars : ∀ char ∈ text, char.isDigit = true ∨ char ∈ ['.', 'e', '-']

theorem Numeral.of_append {whole rest : List Char} {mark : Char} (nonempty : whole ≠ [])
    (digits : ∀ char ∈ whole, char.isDigit = true) (isMark : mark ∈ ['.', 'e'])
    (chars : ∀ char ∈ rest, char.isDigit = true ∨ char ∈ ['.', 'e', '-']) :
    Numeral (whole ++ mark :: rest) where
  begins := by
    cases whole with
    | nil => exact absurd rfl nonempty
    | cons first others => exact ⟨first, others ++ mark :: rest, rfl, digits first (.head _)⟩
  marked := ⟨mark, by simp, isMark⟩
  chars := by
    refine List.forall_mem_append.2 ⟨fun char member => .inl (digits char member), ?_⟩
    exact List.forall_mem_cons.2 ⟨.inr (List.mem_append_left ['-'] isMark), chars⟩

section Magnitude

variable {digits : List Char}

theorem numeral_positionalText (isDigit : ∀ char ∈ digits, char.isDigit = true)
    (nonempty : digits ≠ []) (exponent : Int) : Numeral (positionalText true digits exponent) := by
  obtain ⟨whole, fraction, text, present, allDigits, -⟩ := positionalText_eq isDigit nonempty exponent
  rw [text]
  obtain ⟨wholeDigits, fractionDigits⟩ := List.forall_mem_append.1 allDigits
  exact .of_append present wholeDigits (by simp) fun char member => .inl (fractionDigits char member)

theorem numeral_exponentText (isDigit : ∀ char ∈ digits, char.isDigit = true)
    (nonempty : digits ≠ []) (exponent : Int) : Numeral (exponentText digits exponent) := by
  have power : ∀ char ∈ (toString exponent).toList, char.isDigit = true ∨ char ∈ ['.', 'e', '-'] :=
    fun char member => (digit_or_minus member).imp_right (by rintro rfl; decide)
  cases digits with
  | nil => exact absurd rfl nonempty
  | cons first rest =>
    cases rest with
    | nil => exact .of_append nonempty isDigit (by simp) power
    | cons second rest =>
      have text : exponentText (first :: second :: rest) exponent =
        [first] ++ '.' :: (second :: rest ++ 'e' :: (toString exponent).toList) := rfl
      obtain ⟨head, others⟩ := List.forall_mem_cons.1 isDigit
      rw [text]
      refine .of_append (List.cons_ne_nil first []) (by simpa using head) (by simp) ?_
      refine List.forall_mem_append.2 ⟨fun char member => .inl (others char member), ?_⟩
      exact List.forall_mem_cons.2 ⟨.inr (by simp), power⟩

end Magnitude

theorem numeral_magnitudeText (mantissa : Nat) (exponent : Int) :
    Numeral (magnitudeText .literal mantissa exponent) := by
  set decimal := shortest mantissa exponent
  have digits := decimal.significand_digits
  have nonempty := decimal.significand_ne_nil
  simp only [magnitudeText, Style.literal]
  split
  · exact numeral_positionalText digits nonempty _
  · exact numeral_exponentText digits nonempty _

/-- The text of a positive literal reads back as its fewest digits. -/
theorem scientific?_magnitudeText (mantissa : Nat) (exponent : Int) :
    ∃ decimal, scientific? (magnitudeText .literal mantissa exponent) = some decimal ∧
      decimal.value = (shortest mantissa exponent).value := by
  set decimal := shortest mantissa exponent
  have digits := decimal.significand_digits
  have nonempty := decimal.significand_ne_nil
  simp only [magnitudeText, Style.literal, ← decimal.significand_value]
  split
  · exact scientific?_positionalText digits nonempty _
  · exact scientific?_exponentText digits nonempty _

/-- What reads decimals reads a positive literal as its fewest digits, and rounds these. -/
theorem ofDecimal?_magnitudeText (mantissa : Nat) (exponent : Int) :
    ∃ decimal : Decimal, ofDecimal? (magnitudeText .literal mantissa exponent) =
        some (ofScientific decimal.digits decimal.exponent) ∧
      decimal.value = (shortest mantissa exponent).value := by
  obtain ⟨decimal, read, value⟩ := scientific?_magnitudeText mantissa exponent
  exact ⟨decimal, by rw [ofDecimal?_eq_map, read, Option.map_some], value⟩

/-! ## The texts of doubles -/

open Float.Model (UnpackedFloat Format)
open Reading

/-- The minus of a sign. -/
def minus : UnpackedFloat.Sign → List Char
  | .positive => []
  | .negative => ['-']

theorem minus_injective : Function.Injective minus := by
  rintro (_ | _) (_ | _) same <;> cases same <;> rfl

/-- What stands before the digits of a double. -/
def signText : UnpackedFloat → List Char
  | .notANumber => []
  | .infinity sign | .zero sign | .finite sign _ _ _ => minus sign

/-- The text of a double behind its sign. -/
def unsignedText : UnpackedFloat → List Char
  | .notANumber => ['N', 'a', 'N']
  | .infinity _ => ['i', 'n', 'f']
  | .zero _ => ['0', '.', '0']
  | .finite _ mantissa exponent _ => magnitudeText .literal mantissa exponent

theorem signText_eq (unpacked : UnpackedFloat) :
    signText unpacked = [] ∨ signText unpacked = ['-'] := by
  have sign (sign : UnpackedFloat.Sign) : minus sign = [] ∨ minus sign = ['-'] := by
    cases sign <;> simp [minus]
  cases unpacked with
  | notANumber => exact .inl rfl
  | infinity number | zero number | finite number => exact sign number

theorem toList_text (value : Float) : (text .literal value).toList =
    signText value.toModel.unpack ++ unsignedText value.toModel.unpack := by
  rw [text]
  cases value.toModel.unpack with
  | notANumber => rfl
  | infinity sign => cases sign <;> rfl
  | zero sign => cases sign <;> rfl
  | finite sign mantissa exponent positive => cases sign <;> rw [String.toList_ofList] <;> rfl

/-- Are the mantissa and the exponent those of a double? -/
def Representable : UnpackedFloat → Prop
  | .finite _ mantissa exponent _ => Normal mantissa exponent
  | _ => True

theorem representable_unpack (bits : BitVec Format.binary64.numBits) :
    Representable (UnpackedFloat.unpack .binary64 bits) := by
  fun_cases UnpackedFloat.unpack Format.binary64 bits with
  | case1 => trivial
  | case2 => trivial
  | case3 => trivial
  | case4 fraction biased power signBits _ _ isZero notZero =>
    -- the least exponent, and less than the full mantissa
    have small : fraction.toNat < leastMantissa := fraction.isLt
    have : biased.toNat = 0 := by simp [isZero]
    have : power = (biased.toNat : ℤ) - (1023 + 52) := rfl
    have nonzero : 0 < fraction.toNat :=
      Nat.pos_of_ne_zero fun zero => notZero (BitVec.eq_of_toNat_eq zero)
    exact ⟨nonzero, by omega, by omega, fun _ => by omega⟩
  | case5 fraction biased power signBits _ _ notZero =>
    have full : (1#1 ++ fraction).toNat = leastMantissa + fraction.toNat := by
      rw [BitVec.toNat_append, show ((1#1).toNat <<< 52) = 2 ^ 52 * 1 from rfl,
        ← Nat.two_pow_add_eq_or_of_lt fraction.isLt]
      rfl
    have : fraction.toNat < leastMantissa := fraction.isLt
    have : biased.toNat ≠ 0 := fun zero => notZero (BitVec.eq_of_toNat_eq zero)
    have : power = (biased.toNat : ℤ) - (1023 + 52) := rfl
    have : 0 < leastMantissa := by decide
    exact ⟨by omega, by omega, by omega, fun _ => by omega⟩

theorem unpack_injective {value value' : Float}
    (same : value.toModel.unpack = value'.toModel.unpack) : value = value' :=
  Float.toBits_inj.1 (UInt64.toBitVec_inj.1
    ((UnpackedFloat.unpack_inj_of_valid value.toModel.valid value'.toModel.valid).1 same))

/-- The number that the unsigned text of a double reads back as, if it has digits. -/
def readBack : UnpackedFloat → Option ℚ
  | .notANumber | .infinity _ => none
  | .zero _ => some 0
  | .finite _ mantissa exponent _ => some (shortest mantissa exponent).value

theorem scientific?_unsignedText (unpacked : UnpackedFloat) :
    (scientific? (unsignedText unpacked)).map Decimal.value = readBack unpacked := by
  cases unpacked with
  | notANumber => rfl
  | infinity sign => rfl
  | zero sign =>
    have read : scientific? ['0', '.', '0'] = some ⟨0, -1⟩ := rfl
    rw [unsignedText, read, Option.map_some, Decimal.value, Nat.cast_zero, zero_mul, readBack]
  | finite sign mantissa exponent positive =>
    obtain ⟨decimal, read, value⟩ := scientific?_magnitudeText mantissa exponent
    rw [unsignedText, read, Option.map_some, value]
    rfl

/-- A text behind the sign begins with a digit, or it is a reserved word. -/
theorem head_unsignedText (unpacked : UnpackedFloat) :
    unsignedText unpacked ∈ [['i', 'n', 'f'], ['N', 'a', 'N']] ∨
      ∃ first rest, unsignedText unpacked = first :: rest ∧ first.isDigit = true := by
  cases unpacked with
  | notANumber => exact .inl (.tail _ (.head _))
  | infinity sign => exact .inl (.head _)
  | zero sign => exact .inr ⟨_, _, rfl, rfl⟩
  | finite sign mantissa exponent positive =>
    exact .inr (numeral_magnitudeText mantissa exponent).begins

theorem minus_not_head_unsignedText (unpacked : UnpackedFloat) (rest : List Char) :
    unsignedText unpacked ≠ '-' :: rest := by
  intro text
  rcases head_unsignedText unpacked with reserved | ⟨first, rest', text', digit⟩
  · rw [text] at reserved
    simp at reserved
  · rw [text] at text'
    obtain ⟨rfl, -⟩ := List.cons.inj text'
    exact absurd digit (by decide)

theorem signText_append_inj {unpacked unpacked' : UnpackedFloat}
    (same : signText unpacked ++ unsignedText unpacked =
      signText unpacked' ++ unsignedText unpacked') :
    signText unpacked = signText unpacked' ∧ unsignedText unpacked = unsignedText unpacked' := by
  rcases signText_eq unpacked with plus | minus <;>
    rcases signText_eq unpacked' with plus' | minus'
  · rw [plus, plus'] at same ⊢
    exact ⟨rfl, same⟩
  · rw [plus, minus'] at same
    exact absurd same (minus_not_head_unsignedText _ _)
  · rw [minus, plus'] at same
    exact absurd same.symm (minus_not_head_unsignedText _ _)
  · rw [minus, minus'] at same ⊢
    exact ⟨rfl, (List.cons.inj same).2⟩

theorem unpacked_of_texts {unpacked unpacked' : UnpackedFloat}
    (representable : Representable unpacked) (representable' : Representable unpacked')
    (signs : signText unpacked = signText unpacked')
    (texts : unsignedText unpacked = unsignedText unpacked') : unpacked = unpacked' := by
  have numbers : readBack unpacked = readBack unpacked' := by
    rw [← scientific?_unsignedText, texts, scientific?_unsignedText]
  have noZero {mantissa : Nat} {exponent : Int} (normal : Normal mantissa exponent) :
      some (shortest mantissa exponent).value ≠ some 0 := fun zero =>
    (shortest_pos normal).ne' (Option.some.inj zero)
  cases unpacked <;> cases unpacked'
  case notANumber.notANumber => rfl
  case infinity.infinity => rw [minus_injective signs]
  case zero.zero => rw [minus_injective signs]
  case finite.finite =>
    obtain ⟨rfl, rfl⟩ := shortest_inj representable representable' (Option.some.inj numbers)
    obtain rfl := minus_injective signs
    rfl
  case zero.finite => exact absurd numbers.symm (noZero representable')
  case finite.zero => exact absurd numbers (noZero representable)
  case notANumber.infinity | infinity.notANumber => cases texts
  -- a number is read back on one side only
  all_goals cases numbers

/-- A double is told from its text. -/
theorem text_injective : Function.Injective (text .literal) := by
  intro value value' same
  have lists := congrArg String.toList same
  rw [toList_text, toList_text] at lists
  obtain ⟨signs, texts⟩ := signText_append_inj lists
  exact unpack_injective (unpacked_of_texts (representable_unpack _) (representable_unpack _)
    signs texts)

/-- The characters that a double is written with. -/
theorem text_chars {value : Float} {char : Char} (member : char ∈ (text .literal value).toList) :
    char.isDigit = true ∨ char ∈ ['.', 'e', '-', 'i', 'n', 'f', 'N', 'a'] := by
  rw [toList_text] at member
  rcases List.mem_append.mp member with sign | unsigned
  · rcases signText_eq value.toModel.unpack with plus | minus
    · rw [plus] at sign
      cases sign
    · rw [minus, List.mem_singleton] at sign
      exact .inr (by simp [sign])
  · revert unsigned
    cases value.toModel.unpack with
    | notANumber => simp only [unsignedText, List.mem_cons]; tauto
    | infinity sign => simp only [unsignedText, List.mem_cons]; tauto
    | zero sign =>
      simp only [unsignedText, List.mem_cons, List.not_mem_nil, or_false]
      rintro (rfl | rfl | rfl) <;> simp
    | finite sign mantissa exponent positive =>
      intro unsigned
      refine ((numeral_magnitudeText mantissa exponent).chars char unsigned).imp_right fun mark => ?_
      simp only [List.mem_cons] at mark ⊢
      tauto

/-- A text of a double has no character that ends a word. -/
theorem word_text (value : Float) : Word (text .literal value).toList := by
  intro char member
  have marks : ∀ char ∈ ['.', 'e', '-', 'i', 'n', 'f', 'N', 'a'], char ∉ wordEnds := by
    simp [wordEnds]
  rcases text_chars member with digit | mark
  · exact not_mem_wordEnds_of_isDigit digit
  · exact marks char mark

/-- A text of a double has a character that no integer is written with. -/
theorem exists_mark (value : Float) :
    ∃ char ∈ (text .literal value).toList, char.isDigit = false ∧ char ≠ '-' := by
  suffices ∃ char ∈ unsignedText value.toModel.unpack, char.isDigit = false ∧ char ≠ '-' by
    rw [toList_text]
    obtain ⟨char, member, noDigit⟩ := this
    exact ⟨char, List.mem_append_right _ member, noDigit⟩
  cases value.toModel.unpack with
  | notANumber => exact ⟨'N', .head _, by decide⟩
  | infinity sign => exact ⟨'i', .head _, by decide⟩
  | zero sign => exact ⟨'.', .tail _ (.head _), by decide⟩
  | finite sign mantissa exponent positive =>
    obtain ⟨mark, member, isMark⟩ := (numeral_magnitudeText mantissa exponent).marked
    have marks : ∀ char ∈ ['.', 'e'], char.isDigit = false ∧ char ≠ '-' := by simp
    exact ⟨mark, member, marks mark isMark⟩

theorem text_begins (value : Float) :
    text .literal value ∈ ["inf", "NaN"] ∨
      ∃ char rest, (text .literal value).toList = char :: rest ∧
        (char.isDigit = true ∨ char = '-') := by
  rw [toList_text]
  rcases signText_eq value.toModel.unpack with plus | minus
  · rcases head_unsignedText value.toModel.unpack with reserved | ⟨first, rest, text, digit⟩
    · left
      have list : (text .literal value).toList = unsignedText value.toModel.unpack := by
        rw [toList_text, plus, List.nil_append]
      rw [← list] at reserved
      simp only [List.mem_cons, List.not_mem_nil, or_false] at reserved ⊢
      exact reserved.imp (fun inf => String.toList_inj.1 (inf.trans rfl))
        fun nan => String.toList_inj.1 (nan.trans rfl)
    · rw [plus, text]
      exact .inr ⟨first, rest, rfl, .inl digit⟩
  · rw [minus]
    exact .inr ⟨'-', _, rfl, .inr rfl⟩

end TablePipeline.Number
