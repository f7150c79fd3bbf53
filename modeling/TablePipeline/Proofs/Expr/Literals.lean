import TablePipeline.Expr.Printer
import TablePipeline.Proofs.Number.Notation

/-! # Literals are told from their texts

Null, truth values and numbers are written as words, and each of them in its own way. A column name
is written as it is. So it can be taken for a literal, unless it is a plain name.
-/

namespace TablePipeline

open Reading

/-- Is a name a word, and not one that a literal is written with? -/
structure PlainName (name : String) : Prop where
  word : Word name.toList
  nonempty : name ≠ ""
  notNumber : name.toList.head?.all fun char => !char.isDigit && char != '-'
  notReserved : name ∉ ["NULL", "true", "false", "inf", "NaN"]

instance (name : String) : Decidable (PlainName name) :=
  decidable_of_iff (Word name.toList ∧ name ≠ "" ∧
      (name.toList.head?.all fun char => !char.isDigit && char != '-') ∧
      name ∉ ["NULL", "true", "false", "inf", "NaN"])
    ⟨fun ⟨word, nonempty, notNumber, notReserved⟩ => ⟨word, nonempty, notNumber, notReserved⟩,
      fun ⟨word, nonempty, notNumber, notReserved⟩ => ⟨word, nonempty, notNumber, notReserved⟩⟩

/-- Is a literal written without quotes? -/
def Cell.Bare : Cell → Prop
  | .text _ => False
  | _ => True

namespace Cell.Bare

variable {value value' : Cell}

theorem int_begins (value : Int) : ∃ char rest, (toString value).toList = char :: rest ∧
    (char.isDigit = true ∨ char = '-') := by
  cases text : (toString value).toList with
  | nil =>
    rw [Number.toList_toString, List.append_eq_nil_iff] at text
    exact absurd text.2 Nat.toDigits_ne_nil
  | cons char rest => exact ⟨char, rest, rfl, Number.digit_or_minus (text ▸ List.mem_cons_self ..)⟩

/-- A literal without quotes is a word. -/
theorem word (bare : value.Bare) : Word (literalText value).toList := by
  cases value with
  | null => decide
  | bool value => cases value <;> decide
  | int value =>
    intro char member
    rcases Number.digit_or_minus member with digit | rfl
    · exact not_mem_wordEnds_of_isDigit digit
    · decide
  | float value => exact Number.word_text value
  | text value => exact absurd bare id

/-- A literal without quotes is a reserved word or begins like a number. -/
theorem begins (bare : value.Bare) :
    literalText value ∈ ["NULL", "true", "false", "inf", "NaN"] ∨
      ∃ char rest, (literalText value).toList = char :: rest ∧
        (char.isDigit = true ∨ char = '-') := by
  cases value with
  | null => exact .inl (by decide)
  | bool value => cases value <;> exact .inl (by decide)
  | int value => exact .inr (int_begins value.toInt)
  | float value =>
    refine (Number.text_begins value).imp_left fun reserved => ?_
    simp only [literalText, List.mem_cons, List.not_mem_nil, or_false] at reserved ⊢
    tauto
  | text value => exact absurd bare id

/-- A literal without quotes is not written like a column with a plain name. -/
theorem ne_plain (bare : value.Bare) {name : String} (plain : PlainName name) :
    literalText value ≠ name := by
  rintro rfl
  rcases bare.begins with reserved | ⟨char, rest, text, isPart⟩
  · exact plain.notReserved reserved
  · have notNumber := plain.notNumber
    simp only [text, List.head?_cons, Option.all_some, Bool.and_eq_true, Bool.not_eq_true',
      bne_iff_ne, ne_eq] at notNumber
    rcases isPart with digit | minus
    · exact Bool.false_ne_true (notNumber.1.symm.trans digit)
    · exact notNumber.2 minus

theorem nonempty (bare : value.Bare) : (literalText value).toList ≠ [] := by
  rcases bare.begins with reserved | ⟨char, rest, text, _⟩
  · simp only [List.mem_cons, List.not_mem_nil, or_false] at reserved
    rcases reserved with text | text | text | text | text <;> rw [text] <;> decide
  · rw [text]
    exact List.cons_ne_nil _ _

/-- Integers are told from their texts. -/
theorem int_inj {value value' : Int64} (same : toString value.toInt = toString value'.toInt) :
    value = value' := by
  refine Int64.toInt_inj.mp ?_
  have texts := congrArg String.toList same
  rw [Number.toList_toString, Number.toList_toString] at texts
  have digits {value : Int} : '-' ∉ Number.digitText value.natAbs := fun minus =>
    absurd (Number.isDigit_of_mem_digitText minus) (by decide)
  split at texts <;> split at texts
  · have := Number.digitText_injective (List.append_cancel_left texts)
    omega
  · exact absurd (texts ▸ List.mem_append_left _ (List.mem_singleton.mpr rfl)) digits
  · exact absurd (texts ▸ List.mem_append_left _ (List.mem_singleton.mpr rfl)) digits
  · have := Number.digitText_injective texts
    omega

/-- No number is written like the null or a truth value. -/
theorem ne_number {text number : String} (reserved : text ∈ ["NULL", "true", "false"])
    (isNumber : number ∈ ["inf", "NaN"] ∨ ∃ char rest, number.toList = char :: rest ∧
      (char.isDigit = true ∨ char = '-')) : text ≠ number := by
  rintro rfl
  simp only [List.mem_cons, List.not_mem_nil, or_false] at reserved isNumber
  rcases reserved with rfl | rfl | rfl
  all_goals
    rcases isNumber with other | ⟨char, rest, same, isPart⟩
    · revert other
      decide
    · cases same
      revert isPart
      decide

/-- No double is written like an integer. -/
theorem int_ne_float (value : Int64) (double : Float) :
    literalText (.int value) ≠ literalText (.float double) := by
  intro same
  obtain ⟨char, member, noDigit, noMinus⟩ := Number.exists_mark double
  have member : char ∈ (literalText (.float double)).toList := member
  rw [← same] at member
  rcases Number.digit_or_minus member with digit | minus
  · exact Bool.false_ne_true (noDigit.symm.trans digit)
  · exact noMinus minus

/-- Literals without quotes are told from their texts. -/
theorem inj (bare : value.Bare) (bare' : value'.Bare)
    (same : literalText value = literalText value') : value = value' := by
  have reserved (value : Bool) : literalText (.bool value) ∈ ["NULL", "true", "false"] := by
    cases value <;> decide
  have int (value : Int64) := Or.inr (a := literalText (.int value) ∈ ["inf", "NaN"])
    (int_begins value.toInt)
  cases value with
  | null =>
    cases value' with
    | null => rfl
    | bool value' => cases value' <;> exact absurd same (by decide)
    | int value' => exact absurd same (ne_number (.head _) (int value'))
    | float value' => exact absurd same (ne_number (.head _) (Number.text_begins value'))
    | text value' => exact absurd bare' id
  | bool value =>
    cases value' with
    | null => cases value <;> exact absurd same (by decide)
    | bool value' =>
      cases value <;> cases value'
      case false.true | true.false => exact absurd same (by decide)
      all_goals rfl
    | int value' => exact absurd same (ne_number (reserved value) (int value'))
    | float value' => exact absurd same (ne_number (reserved value) (Number.text_begins value'))
    | text value' => exact absurd bare' id
  | int value =>
    cases value' with
    | null => exact absurd same.symm (ne_number (.head _) (int value))
    | bool value' => exact absurd same.symm (ne_number (reserved value') (int value))
    | int value' => exact congrArg Cell.int (int_inj same)
    | float value' => exact absurd same (int_ne_float value value')
    | text value' => exact absurd bare' id
  | float value =>
    cases value' with
    | null => exact absurd same.symm (ne_number (.head _) (Number.text_begins value))
    | bool value' => exact absurd same.symm (ne_number (reserved value') (Number.text_begins value))
    | int value' => exact absurd same.symm (int_ne_float value' value)
    | float value' => exact congrArg Cell.float (Number.text_injective same)
    | text value' => exact absurd bare' id
  | text value => exact absurd bare id

end Cell.Bare

end TablePipeline
