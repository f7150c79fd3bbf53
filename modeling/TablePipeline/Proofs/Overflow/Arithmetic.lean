import Mathlib.Algebra.Group.Int.Defs
import TablePipeline.Expr.Eval
import TablePipeline.Proofs.Except
import TablePipeline.Sql.Dialect

/-! # Arithmetic in builds that check for overflow

Machine integers are computed in three ways. A checked operation tells whether its result fits, a
saturating one ends at the bound, and a plain one assumes that its result fits: a build that checks
for overflow stops where it does not, and any other build goes on with the wrapped result. The
definitions that run wrap. Here the plain operations are given what the other build makes of them, so
that a computation that holds to its exact results can be told from one that only goes on.

One plain operation can go wrong: rounding to negative digits negates them, and the lowest number of
digits has no negative of its type.
-/

namespace TablePipeline

/-- The integer types in which plain operations compute. -/
inductive MachineType where
  | i32
  | i64
  /-- Sizes and positions. A machine has 64 bits for them. -/
  | usize
deriving DecidableEq, Repr

namespace MachineType

/-- The least integer of a type. -/
def least : MachineType → Int
  | i32 => -2 ^ 31
  | i64 => -2 ^ 63
  | usize => 0

/-- The greatest integer of a type. -/
def greatest : MachineType → Int
  | i32 => 2 ^ 31 - 1
  | i64 => 2 ^ 63 - 1
  | usize => 2 ^ 64 - 1

end MachineType

/-- A plain operation whose exact result does not fit its type. -/
structure Overflow where
  type : MachineType
  exact : Int
deriving DecidableEq, Repr

/-- A computation that stops at the first overflow. -/
abbrev Checked := Except Overflow

/-- A plain operation with some exact result. -/
def MachineType.plain (type : MachineType) (exact : Int) : Checked Int :=
  if type.least ≤ exact ∧ exact ≤ type.greatest then .ok exact else .error ⟨type, exact⟩

/-- The overflow of the negation of the lowest number of digits. -/
def Overflow.lowestNegated : Overflow := ⟨.i32, 2147483648⟩

/-- The negation of a number of digits. -/
def negateDigits (digits : Int32) : Checked Int32 := do
  return .ofInt (← MachineType.i32.plain (-digits.toInt))

/-- Digits other than the lowest have a negative. -/
theorem negateDigits_eq_ok {digits : Int32} (other : digits ≠ Int32.minValue) :
    negateDigits digits = .ok (-digits) := by
  have lower : -2 ^ 31 ≤ digits.toInt := digits.le_toInt
  have upper : digits.toInt < 2 ^ 31 := digits.toInt_lt
  have above : digits.toInt ≠ -2 ^ 31 := fun same => other (Int32.toInt_inj.mp same)
  have fits : MachineType.i32.least ≤ -digits.toInt ∧ -digits.toInt ≤ MachineType.i32.greatest := by
    simp only [MachineType.least, MachineType.greatest]
    omega
  rw [negateDigits, MachineType.plain, if_pos fits, ok_bind, Int32.ofInt_neg, Int32.ofInt_toInt]
  rfl

/-- The lowest number of digits is its own negative where the result wraps, and has none where it is
checked. -/
theorem negateDigits_lowest : negateDigits Int32.minValue = .error .lowestNegated ∧
    -Int32.minValue = Int32.minValue := by
  decide

/-- Rounds to decimal digits, with the negation checked. -/
def Number.roundToChecked (value : Float) (digits : Int32) : Checked Float :=
  if 0 ≤ digits then
    let scale := tenPower digits
    .ok ((value * scale).round / scale)
  else do
    let scale := tenPower (← negateDigits digits)
    return (value / scale).round * scale

/-- The query of a rounded operand, with the negation checked. -/
def Sql.roundChecked (dialect : Dialect) (digits : Int32) (operand : Sql) : Checked Sql :=
  match dialect with
  | .sqlite =>
    if 0 ≤ digits then .ok (call "ROUND" [operand, words (toString digits.toInt)])
    else do
      let scale := Number.text .literal (Number.tenPower (← negateDigits digits))
      return words "(" ++ call "ROUND" [operand ++ words (" / " ++ scale)] ++
        words (" * " ++ scale ++ ")")
  | .postgres =>
    .ok ((call "ROUND" [operand.cast "NUMERIC", words (toString digits.toInt)]).cast
      (dialect.typeName .float))

/-! ## Computations in which one operation may overflow -/

/-- Does a computation give a value or, where that may be, stop at the negated lowest digits? -/
def Computes {α : Type} (mayStop : Prop) (checked : Checked α) (value : α) : Prop :=
  checked = .ok value ∨ mayStop ∧ checked = .error .lowestNegated

namespace Computes

variable {α β : Type} {mayStop others : Prop}

theorem ok (value : α) : Computes mayStop (.ok value) value := .inl rfl

theorem pure (value : α) : Computes mayStop (Pure.pure value) value := .inl rfl

theorem mono {checked : Checked α} {value : α} (computes : Computes mayStop checked value)
    (more : mayStop → others) : Computes others checked value :=
  computes.imp id fun stops => ⟨more stops.1, stops.2⟩

theorem bind {first : Checked α} {value : α} {next : α → Checked β} {result : β}
    (early : Computes mayStop first value) (late : Computes mayStop (next value) result) :
    Computes mayStop (first >>= next) result := by
  rcases early with rfl | ⟨may, rfl⟩
  · exact late
  · exact .inr ⟨may, rfl⟩

/-- A computation with a value is followed by another one. -/
theorem bindPure {first : Checked α} {value : α} (early : Computes mayStop first value)
    (f : α → β) : Computes mayStop (first >>= fun value => Pure.pure (f value)) (f value) :=
  early.bind (.pure _)

theorem mapM {f : α → Checked β} {g : α → β} {items : List α}
    (each : ∀ item ∈ items, Computes mayStop (f item) (g item)) :
    Computes mayStop (items.mapM f) (items.map g) := by
  induction items with
  | nil => exact .pure []
  | cons item rest ih =>
    obtain ⟨here, others⟩ := List.forall_mem_cons.mp each
    rw [List.mapM_cons, List.map_cons]
    exact here.bind ((ih others).bindPure (g item :: ·))

end Computes

/-- Rounding goes wrong for the lowest number of digits alone. -/
theorem Number.computes_roundTo (value : Float) (digits : Int32) :
    Computes (digits = Int32.minValue) (roundToChecked value digits) (roundTo value digits) := by
  rw [roundToChecked, roundTo]
  split
  · exact .ok _
  · by_cases lowest : digits = Int32.minValue
    · exact .inr ⟨lowest, by rw [lowest, negateDigits_lowest.1]; rfl⟩
    · rw [negateDigits_eq_ok lowest]
      exact .pure _

/-- So does writing it for SQLite. No other engine has its digits negated. -/
theorem Sql.computes_round (dialect : Dialect) (digits : Int32) (operand : Sql) :
    Computes (dialect = .sqlite ∧ digits = Int32.minValue) (roundChecked dialect digits operand)
      (round dialect digits operand) := by
  rw [roundChecked.eq_def, round.eq_def]
  cases dialect with
  | postgres => exact .ok _
  | sqlite =>
    dsimp only
    split
    · exact .ok _
    · by_cases lowest : digits = Int32.minValue
      · exact .inr ⟨⟨rfl, lowest⟩, by rw [lowest, negateDigits_lowest.1]; rfl⟩
      · rw [negateDigits_eq_ok lowest]
        exact .pure _

end TablePipeline
