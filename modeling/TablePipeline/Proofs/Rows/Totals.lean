import TablePipeline.Proofs.Expr.Soundness
import TablePipeline.Rows.Aggregate

/-! # Sums of integers

Integers of 64 bits are added from the left, and a sum is given up as soon as one on the way does not
fit. What is computed is therefore the sum of the integers themselves, and it is computed exactly when
the sums of all first parts fit. A sum takes in the rows in which its argument is an integer: the other
rows are left out, whether the argument is null there or a double that an overflow led to.
-/

namespace TablePipeline

namespace Number

/-- A 64-bit integer stands for a value exactly when it is that value. -/
theorem int64?_eq_some {value : Int} {number : Int64} :
    int64? value = some number ↔ number.toInt = value := by
  constructor
  · intro isNumber
    unfold int64? at isNumber
    split at isNumber
    · rename_i inside
      cases isNumber
      refine Int64.toInt_ofInt_of_le ?_ ?_
      · exact inside.1
      · exact Int.lt_add_one_of_le inside.2
    · cases isNumber
  · rintro rfl
    have low := number.le_toInt
    have high := number.toInt_lt
    rw [int64?, if_pos (by simp only [minInt, maxInt]; omega), Int64.ofInt_toInt]

/-- The value of a 64-bit integer fits 64 bits. -/
theorem fits_toInt (number : Int64) : Fits number.toInt := by
  rw [Fits, int64?_eq_some.mpr rfl, Option.isSome_some]

end Number

/-- The sum of integers, whether it fits 64 bits or not. -/
def total : List Int64 → Int
  | [] => 0
  | first :: rest => first.toInt + total rest

@[simp]
theorem total_nil : total [] = 0 := rfl

@[simp]
theorem total_cons (first : Int64) (rest : List Int64) :
    total (first :: rest) = first.toInt + total rest := rfl

/-- A sum that is computed is the sum of the integers. -/
theorem toInt_of_sumInts? {sum result : Int64} {numbers : List Int64}
    (computed : sumInts? sum numbers = some result) :
    result.toInt = sum.toInt + total numbers := by
  induction numbers generalizing sum with
  | nil =>
    cases computed
    simp
  | cons first rest ih =>
    obtain ⟨next, isNext, computed⟩ := Option.bind_eq_some_iff.mp computed
    have step := Number.int64?_eq_some.mp isNext
    rw [ih computed, total_cons]
    omega

/-- A sum is computed exactly when the sums of all first parts fit 64 bits. -/
theorem sumInts?_isSome (sum : Int64) (numbers : List Int64) :
    (sumInts? sum numbers).isSome = true ↔
      ∀ count, Number.Fits (sum.toInt + total (numbers.take count)) := by
  induction numbers generalizing sum with
  | nil => simpa [sumInts?] using Number.fits_toInt sum
  | cons first rest ih =>
    rw [sumInts?]
    cases isNext : Number.int64? (sum.toInt + first.toInt) with
    | none =>
      constructor
      · intro computed
        cases computed
      · intro fits
        have here := fits 1
        simp [Number.Fits, isNext] at here
    | some next =>
      have step := Number.int64?_eq_some.mp isNext
      rw [Option.bind_some, ih next]
      constructor
      · intro fits count
        cases count with
        | zero => simpa using Number.fits_toInt sum
        | succ count =>
          have later := fits count
          rw [step, Int.add_assoc] at later
          exact later
      · intro fits count
        have later := fits (count + 1)
        rw [List.take_succ_cons, total_cons, ← Int.add_assoc, ← step] at later
        exact later

/-- Is a cell the total of some integers? It is null if there are none. Every sum of the first of them
fits 64 bits. -/
structure IsTotal (numbers : List Int64) (cell : Cell) : Prop where
  null : cell = .null ↔ numbers = []
  sum : cell ≠ .null → ∃ sum, cell = .int sum ∧ sum.toInt = total numbers
  fits : ∀ count, Number.Fits (total (numbers.take count))

/-- The sums of the first parts of a list that has an element, as sums that begin with it. -/
private theorem fits_take_cons {first : Int64} {rest : List Int64} :
    (∀ count, Number.Fits (total ((first :: rest).take count))) ↔
      ∀ count, Number.Fits (first.toInt + total (rest.take count)) := by
  constructor
  · intro fits count
    exact fits (count + 1)
  · intro fits count
    cases count with
    | zero => exact Number.fits_toInt 0
    | succ count => exact fits count

/-- The integers among values have a total, or a sum of the first of them does not fit 64 bits. -/
theorem intSum?_cases (values : List Cell) :
    (∃ cell, intSum? values = some cell ∧ IsTotal (values.filterMap Cell.asInt?) cell) ∨
      (intSum? values = none ∧
        ∃ count, ¬ Number.Fits (total ((values.filterMap Cell.asInt?).take count))) := by
  unfold intSum?
  cases numbers : values.filterMap Cell.asInt? with
  | nil =>
    refine .inl ⟨.null, rfl, by simp, fun notNull => absurd rfl notNull, fun count => ?_⟩
    rw [List.take_nil]
    exact Number.fits_toInt 0
  | cons first rest =>
    have computes := sumInts?_isSome first rest
    cases computed : sumInts? first rest with
    | some sum =>
      rw [computed] at computes
      refine .inl ⟨.int sum, by simp only [computed, Option.map_some], by simp, fun _ => ?_, ?_⟩
      · exact ⟨sum, rfl, toInt_of_sumInts? computed⟩
      · exact fits_take_cons.mpr (computes.mp rfl)
    | none =>
      refine .inr ⟨by simp only [computed, Option.map_none], ?_⟩
      rw [computed, ← fits_take_cons] at computes
      simpa using computes

namespace Expr

/-- The integers that an expression takes in some rows. -/
def integers (argument : Expr Nat) (rows : List Row) : List Int64 :=
  rows.filterMap fun row => (argument.eval row).asInt?

/-- An integer is no null, so nothing is lost where nulls are dropped first. -/
theorem filterMap_asInt?_values (argument : Expr Nat) (rows : List Row) :
    ((rows.map argument.eval).filter (!·.isNull)).filterMap Cell.asInt? = argument.integers rows := by
  rw [List.filterMap_filter, List.filterMap_map, integers]
  refine List.filterMap_congr fun row _ => ?_
  simp only [Function.comp_apply]
  cases argument.eval row <;> rfl

/-- A row that is left out of a sum is one in which the argument is null, unless an integer overflows
there. -/
theorem eval_eq_null_of_left_out {argument : Expr String} {schema : Schema} {clause : Clause}
    {value : ValueType} (typed : argument.infer schema clause = .ok value) (isInt : value.type = .int)
    {bound : Expr Nat} (resolved : argument.bind schema = .ok bound) {row : Row}
    (admitted : schema.Admits row) (exact : bound.Exact row)
    (leftOut : (bound.eval row).asInt? = none) : bound.eval row = .null := by
  have fits := argument.admits_eval admitted typed resolved exact
  cases cell : bound.eval row with
  | null => rfl
  | int => rw [cell] at leftOut; cases leftOut
  | bool | float | text => simp [cell, isInt] at fits

end Expr

namespace AggregateFunction

/-- A sum of integers gives the total of the integers that its argument takes. -/
theorem isTotal_of_apply? {argument : Expr Nat} {rows : List Row} {cell : Cell}
    (applied : sum.apply? .int (some argument) rows = some cell) :
    IsTotal (argument.integers rows) cell := by
  rw [ AggregateFunction.apply?, if_pos rfl] at applied
  rcases intSum?_cases ((rows.map argument.eval).filter (!·.isNull)) with
    ⟨found, computed, isTotal⟩ | ⟨none, _⟩
  · rw [computed] at applied
    cases applied
    rwa [Expr.filterMap_asInt?_values] at isTotal
  · rw [none] at applied
    cases applied

/-- The only aggregate without a value is a sum of integers that does not fit 64 bits on its way. -/
theorem eq_sum_of_apply?_eq_none {function : AggregateFunction} {type : CellType}
    {argument : Option (Expr Nat)} {rows : List Row}
    (overflows : function.apply? type argument rows = none) :
    function = sum ∧ type = .int ∧ ∃ expr, argument = some expr ∧
      ∃ count, ¬ Number.Fits (total ((expr.integers rows).take count)) := by
  cases argument with
  | none => cases overflows
  | some expr =>
    cases function with
    | count | countRows | mean | min | max => cases overflows
    | sum =>
      rw [ AggregateFunction.apply?] at overflows
      split at overflows
      · rename_i isInt
        refine ⟨rfl, isInt, expr, rfl, ?_⟩
        rcases intSum?_cases ((rows.map expr.eval).filter (!·.isNull)) with
          ⟨_, computed, _⟩ | ⟨_, beyond⟩
        · rw [computed] at overflows
          cases overflows
        · rwa [Expr.filterMap_asInt?_values] at beyond
      · cases overflows

end AggregateFunction

end TablePipeline
