import TablePipeline.Proofs.Expr.Evaluation

/-! # Values have the types of their expressions

An expression that has a type takes a value of that type in every row that the schema admits: null
only if the type is nullable, and otherwise a cell of the type. There are two reservations. A value
of a double may be an integer, since `coalesce` keeps the argument that it picks as it is; and an
integer result that 64 bits cannot hold is a double, so the statement is about evaluations that are
exact.
-/

namespace TablePipeline

/-! ## Admitted cells -/

/-- Does a type hold the values of another? Doubles hold those of integers. -/
def CellType.Holds (type found : CellType) : Prop :=
  found = type ∨ (found = .int ∧ type = .float)

theorem CellType.Holds.trans {widest wider type : CellType} (outer : widest.Holds wider)
    (inner : wider.Holds type) : widest.Holds type := by
  rcases inner with rfl | ⟨rfl, rfl⟩
  · exact outer
  · rcases outer with rfl | ⟨same, _⟩
    · exact .inr ⟨rfl, rfl⟩
    · cases same

/-- The common type of numbers holds those of both types. -/
theorem CellType.holds_of_widest? {left right wider : CellType}
    (isWider : left.widest? right = some wider) : wider.Holds left ∧ wider.Holds right := by
  cases left <;> cases right <;> simp_all [widest?, Holds]

/-- May an expression of this type take a cell as its value? -/
def ValueType.Admits (value : ValueType) (cell : Cell) : Prop :=
  match cell.type? with
  | none => value.nullable = true
  | some found => value.type.Holds found

/-- May a row hold a cell in this column, on its way through the steps of a chain? -/
def Column.Admits (column : Column) (cell : Cell) : Prop :=
  ValueType.Admits ⟨column.type, column.nullable⟩ cell

/-- Does a row have one cell for every column, each as its column admits? -/
def Schema.Admits (schema : Schema) (row : Row) : Prop :=
  List.Forall₂ Column.Admits schema.columns row

namespace ValueType

variable {value : ValueType}

@[simp]
theorem admits_null : value.Admits .null ↔ value.nullable = true :=
  Iff.rfl

@[simp]
theorem admits_bool {truth : Bool} : value.Admits (.bool truth) ↔ value.type = .bool := by
  simp [Admits, Cell.type?, CellType.Holds, eq_comm]

@[simp]
theorem admits_int {number : Int64} :
    value.Admits (.int number) ↔ value.type = .int ∨ value.type = .float := by
  simp [Admits, Cell.type?, CellType.Holds, eq_comm]

@[simp]
theorem admits_float {number : Float} : value.Admits (.float number) ↔ value.type = .float := by
  simp [Admits, Cell.type?, CellType.Holds, eq_comm]

@[simp]
theorem admits_text {text : String} : value.Admits (.text text) ↔ value.type = .text := by
  simp [Admits, Cell.type?, CellType.Holds, eq_comm]

/-- A wider type admits what a narrower one does. -/
theorem Admits.widen {wider : ValueType} {cell : Cell} (admitted : value.Admits cell)
    (holds : wider.type.Holds value.type) (nullable : cell = .null → wider.nullable = true) :
    wider.Admits cell := by
  cases cell <;> simp_all [CellType.Holds]
  rcases holds with same | ⟨isInt, isFloat⟩
  · rwa [← same]
  · exact .inr isFloat

theorem numeric_eq_ok {context : String} {result : ValueType} :
    value.numeric context = .ok result ↔ value.type.isNumeric = true ∧ value = result := by
  unfold numeric
  split <;> simp [*]

theorem expect_eq_ok {context : String} {type : CellType} {result : ValueType} :
    value.expect context type = .ok result ↔ value.type = type ∧ value = result := by
  unfold expect
  split <;> simp [*]

end ValueType

namespace Schema

variable {schema : Schema} {row : Row}

theorem Admits.length_eq (admitted : schema.Admits row) : row.length = schema.width :=
  (List.Forall₂.length_eq admitted).symm

/-- The cell at a position is one that its column admits. -/
theorem Admits.cell (admitted : schema.Admits row) {position : Nat} {column : Column}
    (here : schema.columns[position]? = some column) : column.Admits (row.cell position) := by
  obtain ⟨inside, isColumn⟩ := List.getElem?_eq_some_iff.mp here
  have inRow : position < row.length := admitted.length_eq ▸ inside
  rw [Row.cell, List.getElem?_eq_getElem inRow, Option.getD_some, ← isColumn]
  exact List.Forall₂.get admitted inside inRow

end Schema

/-! ## Exact evaluations -/

/-- Does an integer fit 64 bits? -/
def Number.Fits (value : Int) : Prop :=
  (int64? value).isSome = true

instance (value : Int) : Decidable (Number.Fits value) :=
  inferInstanceAs (Decidable (_ = _))

/-- Is the result of an operator on integers, if it is one, an integer of 64 bits? -/
def BinaryOp.Exact : BinaryOp → Cell → Cell → Prop
  | arithmetic .add, .int left, .int right => Number.Fits (left.toInt + right.toInt)
  | arithmetic .subtract, .int left, .int right => Number.Fits (left.toInt - right.toInt)
  | arithmetic .multiply, .int left, .int right => Number.Fits (left.toInt * right.toInt)
  | _, _, _ => True

@[inherit_doc BinaryOp.Exact]
def UnaryOp.Exact : UnaryOp → Cell → Prop
  | negate, .int value => Number.Fits (-value.toInt)
  | _, _ => True

@[inherit_doc BinaryOp.Exact]
def ScalarFunction.Exact : ScalarFunction → List Cell → Prop
  | abs, [.int value] => Number.Fits value.toInt.natAbs
  | _, _ => True

namespace Expr

mutual

/-- Does no integer overflow while an expression is evaluated in a row? -/
def Exact (row : Row) : Expr Nat → Prop
  | column _ | literal _ => True
  | cast operand _ => operand.Exact row
  | binary op left right =>
    left.Exact row ∧ right.Exact row ∧ op.Exact (left.eval row) (right.eval row)
  | unary op operand => operand.Exact row ∧ op.Exact (operand.eval row)
  | call .coalesce arguments => ExactFirst row arguments
  | call function arguments => ExactAll row arguments ∧ function.Exact (evalAll row arguments)

/-- Does no integer overflow while arguments are evaluated? -/
def ExactAll (row : Row) : List (Expr Nat) → Prop
  | [] => True
  | argument :: rest => argument.Exact row ∧ ExactAll row rest

/-- Does no integer overflow while arguments are evaluated up to the first that is not null? -/
def ExactFirst (row : Row) : List (Expr Nat) → Prop
  | [] => True
  | argument :: rest =>
    argument.Exact row ∧ ((argument.eval row).isNull = true → ExactFirst row rest)

end

end Expr

/-! ## Operators -/

/-- Doubles hold the numbers of both sides as soon as one side has them. -/
theorem CellType.widest?_of_numeric {left right : CellType} (leftNumeric : left.isNumeric = true)
    (rightNumeric : right.isNumeric = true) :
    left.widest? right = some (if left = .int ∧ right = .int then .int else .float) := by
  cases left <;> cases right <;> simp_all [isNumeric, widest?]

namespace BinaryOp

variable {context : String} {left right result : ValueType}

theorem infer_arithmetic {op : ArithmeticOp} :
    (arithmetic op).infer context left right = .ok result ↔
      left.type.isNumeric = true ∧ right.type.isNumeric = true ∧
        result = if op = .divide then ⟨.float, true⟩
          else ⟨if left.type = .int ∧ right.type = .int then .int else .float,
            left.nullable || right.nullable⟩ := by
  simp only [infer, bind_eq_ok, ValueType.numeric_eq_ok]
  constructor
  · rintro ⟨_, ⟨leftNumeric, rfl⟩, _, ⟨rightNumeric, rfl⟩, typed⟩
    rw [CellType.widest?_of_numeric leftNumeric rightNumeric] at typed
    refine ⟨leftNumeric, rightNumeric, ?_⟩
    rw [← pure_eq_ok.mp ((apply_ite ..).trans typed)]
    rfl
  · rintro ⟨leftNumeric, rightNumeric, rfl⟩
    refine ⟨left, ⟨leftNumeric, rfl⟩, right, ⟨rightNumeric, rfl⟩, ?_⟩
    rw [CellType.widest?_of_numeric leftNumeric rightNumeric]
    split <;> rfl

theorem infer_comparison {op : ComparisonOp} :
    (comparison op).infer context left right = .ok result ↔
      (left.type = right.type ∨ (left.type.widest? right.type).isSome = true) ∧
        result = ⟨.bool, left.nullable || right.nullable⟩ := by
  simp only [infer]
  split
  · rename_i comparable
    rw [pure_eq_ok, and_iff_right comparable, eq_comm]
  · rename_i apart
    rw [throw_eq_ok]
    exact iff_of_false id fun comparable => apart comparable.1

theorem infer_logical {op : LogicalOp} :
    (logical op).infer context left right = .ok result ↔
      left.type = .bool ∧ right.type = .bool ∧
        result = ⟨.bool, left.nullable || right.nullable⟩ := by
  simp only [infer, bind_eq_ok, ValueType.expect_eq_ok, pure_eq_ok]
  constructor
  · rintro ⟨_, ⟨leftBool, rfl⟩, _, ⟨rightBool, rfl⟩, rfl⟩
    exact ⟨leftBool, rightBool, rfl⟩
  · rintro ⟨leftBool, rightBool, rfl⟩
    exact ⟨left, ⟨leftBool, rfl⟩, right, ⟨rightBool, rfl⟩, rfl⟩

end BinaryOp

/-- On integers that it computes exactly, an operator other than division gives an integer. -/
theorem ArithmeticOp.onInts_of_exact {op : ArithmeticOp} (notDivide : op ≠ .divide)
    {left right : Int64} (exact : (BinaryOp.arithmetic op).Exact (.int left) (.int right)) :
    ∃ value, op.onInts left right = .int value := by
  cases op with
  | divide => exact absurd rfl notDivide
  | add | subtract | multiply =>
    obtain ⟨value, fits⟩ := Option.isSome_iff_exists.mp exact
    exact ⟨value, by simp only [onInts, fits]⟩

/-- On integers, an operator other than division gives an integer or the double it overflows into. -/
theorem ArithmeticOp.onInts_number {op : ArithmeticOp} (notDivide : op ≠ .divide)
    (left right : Int64) :
    (∃ value, op.onInts left right = .int value) ∨ ∃ value, op.onInts left right = .float value := by
  have number (exact : Int) (overflow : Float) :
      (∃ value, intOr exact overflow = .int value) ∨
        ∃ value, intOr exact overflow = .float value := by
    unfold intOr
    split
    · exact .inl ⟨_, rfl⟩
    · exact .inr ⟨_, rfl⟩
  cases op with
  | divide => exact absurd rfl notDivide
  | add | subtract | multiply => exact number _ _

/-- On doubles, an operator other than division gives a double. -/
theorem ArithmeticOp.onFloats_eq_float {op : ArithmeticOp} (notDivide : op ≠ .divide)
    (left right : Float) : ∃ value, op.onFloats left right = .float value := by
  cases op with
  | divide => exact absurd rfl notDivide
  | add | subtract | multiply => exact ⟨_, rfl⟩

/-- Division gives a double or null. -/
theorem ArithmeticOp.divide_apply (a b : Cell) :
    (BinaryOp.arithmetic .divide).apply a b = .null ∨
      ∃ value, (BinaryOp.arithmetic .divide).apply a b = .float value := by
  have onFloats (x y : Float) : divide.onFloats x y = .null ∨
      ∃ value, divide.onFloats x y = .float value := by
    simp only [onFloats]
    split
    · exact .inl rfl
    · exact .inr ⟨_, rfl⟩
  cases a <;> cases b <;> first | exact .inl rfl | exact onFloats _ _

/-- An operator on numbers gives a number, or null where it divides. Only an integer has to be exact:
a double holds whatever an overflow leads to. -/
theorem ArithmeticOp.admits_apply {op : ArithmeticOp} {context : String}
    {left right result : ValueType} {a b : Cell}
    (typed : (BinaryOp.arithmetic op).infer context left right = .ok result)
    (admitsLeft : left.Admits a) (admitsRight : right.Admits b)
    (exact : result.type = .int → (BinaryOp.arithmetic op).Exact a b) :
    result.Admits ((BinaryOp.arithmetic op).apply a b) := by
  obtain ⟨leftNumeric, rightNumeric, rfl⟩ := BinaryOp.infer_arithmetic.mp typed
  by_cases isDivide : op = .divide
  · subst isDivide
    rw [if_pos rfl]
    rcases divide_apply a b with isNull | ⟨value, isFloat⟩
    · rw [isNull, ValueType.admits_null]
    · rw [isFloat, ValueType.admits_float]
  · rw [if_neg isDivide] at exact ⊢
    have isFloat {x y : Float} (wide : ¬ (left.type = .int ∧ right.type = .int)) :
        ValueType.Admits ⟨if left.type = .int ∧ right.type = .int then .int else .float,
          left.nullable || right.nullable⟩ (op.onFloats x y) := by
      obtain ⟨value, same⟩ := onFloats_eq_float isDivide x y
      rw [same, ValueType.admits_float, if_neg wide]
    cases a with
    | null => simpa [BinaryOp.apply, Cell.isNull] using .inl admitsLeft
    | bool | text => simp_all [CellType.isNumeric]
    | int x =>
      cases b with
      | null => simpa [BinaryOp.apply, Cell.isNull] using .inr admitsRight
      | bool | text => simp_all [CellType.isNumeric]
      | int y =>
        change ValueType.Admits _ (op.onInts x y)
        by_cases bothInt : left.type = .int ∧ right.type = .int
        · rw [if_pos bothInt] at exact ⊢
          obtain ⟨value, same⟩ := onInts_of_exact isDivide (exact rfl)
          rw [same, ValueType.admits_int]
          exact .inl rfl
        · rw [if_neg bothInt]
          rcases onInts_number isDivide x y with ⟨value, same⟩ | ⟨value, same⟩
          · rw [same, ValueType.admits_int]
            exact .inr rfl
          · rw [same, ValueType.admits_float]
      | float y => exact isFloat fun both => by simp_all
    | float x =>
      cases b with
      | null => simpa [BinaryOp.apply, Cell.isNull] using .inr admitsRight
      | bool | text => simp_all [CellType.isNumeric]
      | int y => exact isFloat fun both => by simp_all
      | float y => exact isFloat fun both => by simp_all

/-- Cells of comparable types compare. -/
theorem Cell.order?_isSome_of_admits {left right : ValueType} {a b : Cell}
    (comparable : left.type = right.type ∨ (left.type.widest? right.type).isSome = true)
    (admitsLeft : left.Admits a) (admitsRight : right.Admits b) (notNull : a.isNull = false)
    (notNull' : b.isNull = false) : (a.order? b).isSome = true := by
  obtain ⟨leftType, _⟩ := left
  obtain ⟨rightType, _⟩ := right
  cases a <;> cases b <;> simp only [isNull, Bool.true_eq_false] at notNull notNull' <;>
    first
    | rfl
    | cases leftType <;> cases rightType <;> simp_all [CellType.widest?]

/-- A comparison of cells of comparable types gives a truth value. -/
theorem ComparisonOp.admits_apply {op : ComparisonOp} {context : String}
    {left right result : ValueType} {a b : Cell}
    (typed : (BinaryOp.comparison op).infer context left right = .ok result)
    (admitsLeft : left.Admits a) (admitsRight : right.Admits b) :
    result.Admits ((BinaryOp.comparison op).apply a b) := by
  obtain ⟨comparable, rfl⟩ := BinaryOp.infer_comparison.mp typed
  rw [BinaryOp.apply]
  split
  · rename_i someNull
    rcases Bool.or_eq_true_iff.mp someNull with isNull | isNull
    · cases a <;> simp_all [Cell.isNull]
    · cases b <;> simp_all [Cell.isNull]
  · rename_i noneNull
    rw [Bool.not_eq_true, Bool.or_eq_false_iff] at noneNull
    obtain ⟨order, ordered⟩ := Option.isSome_iff_exists.mp
      (Cell.order?_isSome_of_admits comparable admitsLeft admitsRight noneNull.1 noneNull.2)
    rw [apply, ordered, ValueType.admits_bool]

private theorem admits_undecided {decided : Prop} [Decidable decided] {truth : Bool} :
    ValueType.Admits ⟨.bool, true⟩ (if decided then .bool truth else .null) := by
  split <;> simp

/-- Three-valued logic gives a truth value, or null where an operand is null. -/
theorem LogicalOp.admits_apply {op : LogicalOp} {context : String}
    {left right result : ValueType} {a b : Cell}
    (typed : (BinaryOp.logical op).infer context left right = .ok result)
    (admitsLeft : left.Admits a) (admitsRight : right.Admits b) :
    result.Admits ((BinaryOp.logical op).apply a b) := by
  obtain ⟨leftBool, rightBool, rfl⟩ := BinaryOp.infer_logical.mp typed
  cases a <;> cases b <;> simp_all [BinaryOp.apply, apply, Cell.asBool?]
  case null.bool | bool.null => exact admits_undecided

/-- An operator gives values of the type that it has between its operands. -/
theorem BinaryOp.admits_apply {op : BinaryOp} {context : String} {left right result : ValueType}
    {a b : Cell} (typed : op.infer context left right = .ok result)
    (admitsLeft : left.Admits a) (admitsRight : right.Admits b)
    (exact : result.type = .int → op.Exact a b) : result.Admits (op.apply a b) := by
  cases op with
  | arithmetic op => exact op.admits_apply typed admitsLeft admitsRight exact
  | comparison op => exact op.admits_apply typed admitsLeft admitsRight
  | logical op => exact op.admits_apply typed admitsLeft admitsRight

/-- Where an integer may be left out for a double, what is computed has the type of the argument. -/
theorem ValueType.Admits.intOr {value : ValueType} {number : Int64} {exact : Int} {overflow : Float}
    (admitted : value.Admits (.int number)) (fits : value.type = .int → Number.Fits exact) :
    value.Admits (intOr exact overflow) := by
  unfold TablePipeline.intOr
  split
  · exact admitted
  · rename_i missing
    rcases ValueType.admits_int.mp admitted with isInt | isFloat
    · have found := fits isInt
      rw [Number.Fits, missing] at found
      cases found
    · exact ValueType.admits_float.mpr isFloat

/-- An operator gives values of the type that it has on its operand. -/
theorem UnaryOp.admits_apply {op : UnaryOp} {context : String} {operand result : ValueType}
    {a : Cell} (typed : op.infer context operand = .ok result) (admitted : operand.Admits a)
    (exact : result.type = .int → op.Exact a) : result.Admits (op.apply a) := by
  cases op with
  | negate =>
    obtain ⟨numeric, rfl⟩ := ValueType.numeric_eq_ok.mp typed
    cases a with
    | null | float => simpa [apply] using admitted
    | bool | text => simp_all [CellType.isNumeric]
    | int value => exact admitted.intOr exact
  | not =>
    obtain ⟨isBool, rfl⟩ := ValueType.expect_eq_ok.mp typed
    cases a <;> simp_all [apply]
  | isNull | isNotNull =>
    cases typed
    rw [apply, ValueType.admits_bool]

/-- A cast gives values of the type that it casts to, if it may cast the values that it gets. -/
theorem Cell.admits_castTo {source : ValueType} {type : CellType} {a : Cell}
    (casts : source.type.castsTo type = true) (admitted : source.Admits a) :
    ValueType.Admits ⟨type, source.nullable⟩ (a.castTo type) := by
  obtain ⟨sourceType, nullable⟩ := source
  cases a <;> cases sourceType <;> cases type <;> simp_all [castTo, CellType.castsTo]

/-! ## Functions -/

/-- An argument has the type that is common so far, or a type wider than both is gone on with. -/
theorem coalesceType_cons {context : String} {type result : CellType} {next : ValueType}
    {rest : List ValueType} (common : coalesceType context type (next :: rest) = .ok result) :
    (next.type = type ∧ coalesceType context type rest = .ok result) ∨
      ∃ wider, next.type ≠ type ∧ type.widest? next.type = some wider ∧
        coalesceType context wider rest = .ok result := by
  rw [coalesceType] at common
  split at common
  · rename_i same
    exact .inl ⟨same, common⟩
  · rename_i different
    split at common
    · rename_i wider isWider
      exact .inr ⟨wider, different, isWider, common⟩
    · cases common

/-- The common type of some types holds the values of each. -/
theorem coalesceType_holds {context : String} {type result : CellType} {rest : List ValueType}
    (common : coalesceType context type rest = .ok result) :
    result.Holds type ∧ ∀ value ∈ rest, result.Holds value.type := by
  induction rest generalizing type with
  | nil =>
    cases common
    exact ⟨.inl rfl, fun _ member => nomatch member⟩
  | cons next rest ih =>
    rcases coalesceType_cons common with ⟨same, common⟩ | ⟨wider, _, isWider, common⟩
    · obtain ⟨first, others⟩ := ih common
      exact ⟨first, List.forall_mem_cons.mpr ⟨same ▸ first, others⟩⟩
    · obtain ⟨first, others⟩ := ih common
      have wide := CellType.holds_of_widest? isWider
      exact ⟨first.trans wide.1, List.forall_mem_cons.mpr ⟨first.trans wide.2, others⟩⟩

/-- A number can be taken as a double. -/
theorem ValueType.Admits.asFloat? {value : ValueType} {cell : Cell} (admitted : value.Admits cell)
    (numeric : value.type.isNumeric = true) (notNull : cell.isNull = false) :
    ∃ number, cell.asFloat? = some number := by
  cases cell <;> simp_all [Cell.isNull, Cell.asFloat?, CellType.isNumeric]

namespace ScalarFunction

variable {context : String} {value base exponent result : ValueType} {a b : Cell}

/-- A function of an argument that may be null may be null. -/
theorem nullable_of_infer {function : ScalarFunction} (notCoalesce : function ≠ .coalesce)
    (typed : function.infer context [value] = .ok result) (nullable : value.nullable = true) :
    result.nullable = true := by
  cases function with
  | round | sqrt =>
    simp only [infer, bind_eq_ok, ValueType.numeric_eq_ok, pure_eq_ok] at typed
    obtain ⟨_, ⟨_, rfl⟩, rfl⟩ := typed
    first | exact nullable | rfl
  | abs =>
    obtain ⟨_, rfl⟩ := ValueType.numeric_eq_ok.mp typed
    exact nullable
  | strip =>
    obtain ⟨_, rfl⟩ := ValueType.expect_eq_ok.mp typed
    exact nullable
  | pow => cases typed
  | coalesce => exact absurd rfl notCoalesce

/-- A function of an argument that is not null gives a value of the type that it has. -/
theorem admits_onValues {function : ScalarFunction} (notCoalesce : function ≠ .coalesce)
    (typed : function.infer context [value] = .ok result) (admitted : value.Admits a)
    (notNull : a.isNull = false) (exact : result.type = .int → function.Exact [a]) :
    result.Admits (function.onValues [a]) := by
  cases function with
  | round digits =>
    simp only [infer, bind_eq_ok, ValueType.numeric_eq_ok, pure_eq_ok] at typed
    obtain ⟨_, ⟨numeric, rfl⟩, rfl⟩ := typed
    obtain ⟨number, isNumber⟩ := admitted.asFloat? numeric notNull
    simp [onValues, isNumber]
  | abs =>
    obtain ⟨numeric, rfl⟩ := ValueType.numeric_eq_ok.mp typed
    cases a with
    | null => cases notNull
    | bool | text => simp_all [CellType.isNumeric]
    | float => simpa [onValues] using admitted
    | int number => exact admitted.intOr exact
  | sqrt =>
    simp only [infer, bind_eq_ok, ValueType.numeric_eq_ok, pure_eq_ok] at typed
    obtain ⟨_, ⟨numeric, rfl⟩, rfl⟩ := typed
    obtain ⟨number, isNumber⟩ := admitted.asFloat? numeric notNull
    simp only [onValues, isNumber]
    split <;> simp
  | strip =>
    obtain ⟨isText, rfl⟩ := ValueType.expect_eq_ok.mp typed
    cases a <;> simp_all [onValues, Cell.isNull]
  | pow => cases typed
  | coalesce => exact absurd rfl notCoalesce

/-- A power of numbers is a double. -/
theorem pow_apply (a b : Cell) :
    pow.apply [a, b] = .null ∨ ∃ power, pow.apply [a, b] = .float power := by
  cases a <;> cases b <;> simp [apply, Cell.isNull, onValues, Cell.asFloat?]

/-- A power is a double, or null where the base or the exponent may be. -/
theorem admits_pow (typed : pow.infer context [base, exponent] = .ok result)
    (admitsBase : base.Admits a) (admitsExponent : exponent.Admits b) :
    result.Admits (pow.apply [a, b]) := by
  simp only [infer, bind_eq_ok, ValueType.numeric_eq_ok] at typed
  obtain ⟨_, ⟨baseNumeric, rfl⟩, typed⟩ := typed
  split at typed
  · rw [← pure_eq_ok.mp typed]
    rcases pow_apply a b with isNull | ⟨power, isFloat⟩
    · rw [isNull, ValueType.admits_null]
    · rw [isFloat, ValueType.admits_float]
  · rename_i notNullable
    simp only [bind_eq_ok, ValueType.numeric_eq_ok, pure_eq_ok] at typed
    obtain ⟨_, ⟨exponentNumeric, rfl⟩, rfl⟩ := typed
    have baseNotNull : a.isNull = false := by
      cases a <;> first | rfl | exact absurd admitsBase notNullable
    obtain ⟨x, isX⟩ := admitsBase.asFloat? baseNumeric baseNotNull
    cases exponentNull : b.isNull with
    | true =>
      cases b with
      | null => simpa [apply, Cell.isNull] using admitsExponent
      | bool | int | float | text => cases exponentNull
    | false =>
      obtain ⟨y, isY⟩ := admitsExponent.asFloat? exponentNumeric exponentNull
      simp [apply, onValues, baseNotNull, exponentNull, isX, isY]

/-- A function other than `coalesce` gives values of the type that it has. -/
theorem admits_apply {function : ScalarFunction} (notCoalesce : function ≠ .coalesce)
    {types : List ValueType} {arguments : List Cell}
    (typed : function.infer context types = .ok result)
    (admitted : List.Forall₂ ValueType.Admits types arguments)
    (exact : result.type = .int → function.Exact arguments) :
    result.Admits (function.apply arguments) := by
  match types, admitted with
  | [], .nil => cases function <;> cases typed
  | [value], .cons (b := a) first .nil =>
    have applied : function.apply [a] = if a.isNull then .null else function.onValues [a] := by
      cases function <;> first | exact absurd rfl notCoalesce | simp [apply]
    rw [applied]
    split
    · rename_i isNull
      refine nullable_of_infer notCoalesce typed ?_
      cases a <;> first | exact first | cases isNull
    · rename_i notNull
      exact admits_onValues notCoalesce typed first (by simpa using notNull) exact
  | [base, exponent], .cons first (.cons second .nil) =>
    cases function with
    | pow => exact admits_pow typed first second
    | round | abs | sqrt | strip => cases typed
    | coalesce => exact absurd rfl notCoalesce
  | _ :: _ :: _ :: _, _ => cases function <;> first | cases typed | exact absurd rfl notCoalesce

/-- The first argument that is not null has the common type, and there is one unless all arguments
may be null. -/
theorem admits_coalesce {types : List ValueType} {arguments : List Cell}
    (typed : coalesce.infer context types = .ok result)
    (found : match arguments.find? (!·.isNull) with
      | some cell => ∃ value ∈ types, value.Admits cell
      | none => types.all (·.nullable) = true) :
    result.Admits (coalesce.apply arguments) := by
  cases types with
  | nil => cases typed
  | cons first rest =>
    simp only [infer, bind_eq_ok, pure_eq_ok] at typed
    obtain ⟨type, common, rfl⟩ := typed
    rw [apply]
    split at found
    · rename_i cell isFirst
      obtain ⟨value, member, admitted⟩ := found
      have notNull := List.find?_some isFirst
      have holds : type.Holds value.type := by
        rcases List.mem_cons.mp member with rfl | member
        · exact (coalesceType_holds common).1
        · exact (coalesceType_holds common).2 value member
      rw [isFirst]
      refine admitted.widen holds fun isNull => ?_
      rw [isNull] at notNull
      cases notNull
    · rename_i none
      rw [none]
      exact found

end ScalarFunction

/-! ## Expressions -/

namespace Expr

variable {schema : Schema} {clause : Clause} {row : Row}

/-- What an exact evaluation asks of the cells that it comes across. -/
def exactness : Requirement where
  ofBinary := BinaryOp.Exact
  ofUnary := UnaryOp.Exact
  ofCall := ScalarFunction.Exact

mutual

/-- An exact evaluation comes across exact operands only. -/
theorem Exact.meets : ∀ {expr : Expr Nat}, expr.Exact row → expr.Meets exactness row
  | column _, _ | literal _, _ => trivial
  | cast _ _, exact => ⟨Exact.meets exact, trivial⟩
  | binary _ _ _, ⟨left, right, exact⟩ => ⟨left.meets, right.meets, exact⟩
  | unary _ _, ⟨operand, exact⟩ => ⟨operand.meets, exact⟩
  | call function arguments, exact => by
    by_cases isCoalesce : function = .coalesce
    · subst isCoalesce
      exact ExactFirst.meets arguments exact
    · have exact : ExactAll row arguments ∧ function.Exact (evalAll row arguments) := by
        cases function <;> first | exact exact | exact absurd rfl isCoalesce
      have meets : MeetsAll exactness row arguments ∧
          exactness.ofCall function (evalAll row arguments) :=
        ⟨ExactAll.meets arguments exact.1, exact.2⟩
      cases function <;> first | exact meets | exact absurd rfl isCoalesce

@[inherit_doc Exact.meets]
theorem ExactAll.meets : ∀ arguments, ExactAll row arguments → MeetsAll exactness row arguments
  | [], _ => trivial
  | _ :: rest, ⟨first, others⟩ => ⟨first.meets, ExactAll.meets rest others⟩

@[inherit_doc Exact.meets]
theorem ExactFirst.meets :
    ∀ arguments, ExactFirst row arguments → MeetsFirst exactness row arguments
  | [], _ => trivial
  | _ :: rest, ⟨first, others⟩ => ⟨first.meets, fun isNull => ExactFirst.meets rest (others isNull)⟩

end

/-- Exact evaluations carry on that a type admits a value. -/
theorem exactness_carries : exactness.Carries ValueType.Admits where
  null := ValueType.admits_null
  literal {cell type} hasType := by
    cases cell <;> cases hasType <;> simp
  cast casts admitted _ := Cell.admits_castTo casts admitted
  binary typed left right exact := BinaryOp.admits_apply typed left right fun _ => exact
  unary typed operand exact := UnaryOp.admits_apply typed operand fun _ => exact
  call notCoalesce typed admitted exact :=
    ScalarFunction.admits_apply notCoalesce typed admitted fun _ => exact
  coalesce typed found := ScalarFunction.admits_coalesce typed found

/-- In a row that the schema admits, an expression that is evaluated exactly takes a value of its
type. -/
theorem admits_eval (admitted : schema.Admits row) (expr : Expr String) {type : ValueType}
    {bound : Expr Nat} (typed : expr.infer schema clause = .ok type)
    (resolved : expr.bind schema = .ok bound) (exact : bound.Exact row) :
    type.Admits (bound.eval row) :=
  exactness_carries.eval (fun here => admitted.cell here) expr typed resolved exact.meets

end Expr

end TablePipeline
