import TablePipeline.Expr.Basic

/-! # Values of expressions

A bound expression has a value in every row. Null operands give null, logic has three values, and
division by zero gives null. An integer result that 64 bits cannot hold is computed in doubles
instead. Operands of the wrong kind give null, so that evaluation is total.
-/

namespace TablePipeline

namespace Number

/-- `result * base ^ count`, multiplied up by squaring. -/
def powerLoop (result base : Float) (count : Nat) : Float :=
  let result := if count % 2 = 1 then result * base else result
  if count / 2 = 0 then result else powerLoop result (base * base) (count / 2)
termination_by count

/-- The power of ten with the given exponent, as repeated squaring gives it. Above `10 ^ 22` it need
not be the nearest double. -/
def tenPower (exponent : Int32) : Float :=
  let power := powerLoop 1.0 10.0 exponent.toInt.natAbs
  if exponent < 0 then 1.0 / power else power

/-- Rounds to decimal digits, a half away from zero. -/
def roundTo (value : Float) (digits : Int32) : Float :=
  if 0 ≤ digits then
    let scale := tenPower digits
    (value * scale).round / scale
  else
    let scale := tenPower (-digits)
    (value / scale).round * scale

end Number

/-- An integer result, or the double it overflows into. -/
def intOr (exact : Int) (overflow : Float) : Cell :=
  match Number.int64? exact with
  | some value => .int value
  | none => .float overflow

/-- The result of an operator on doubles. -/
def ArithmeticOp.onFloats (op : ArithmeticOp) (left right : Float) : Cell :=
  match op with
  | add => .float (left + right)
  | subtract => .float (left - right)
  | multiply => .float (left * right)
  | divide => if right == 0.0 then .null else .float (left / right)

/-- The result of an operator on integers. -/
def ArithmeticOp.onInts (op : ArithmeticOp) (left right : Int64) : Cell :=
  let floats := op.onFloats (Number.toFloat left) (Number.toFloat right)
  let exact (result : Int) : Cell :=
    match Number.int64? result with
    | some value => .int value
    | none => floats
  match op with
  | add => exact (left.toInt + right.toInt)
  | subtract => exact (left.toInt - right.toInt)
  | multiply => exact (left.toInt * right.toInt)
  | divide => floats

/-- The result of an operator on two cells that are not null. -/
def ArithmeticOp.apply (op : ArithmeticOp) (left right : Cell) : Cell :=
  match left, right with
  | .int left, .int right => op.onInts left right
  | _, _ =>
    match left.asFloat?, right.asFloat? with
    | some left, some right => op.onFloats left right
    | _, _ => .null

/-- Does an order satisfy a comparison? -/
def ComparisonOp.holds : ComparisonOp → Ordering → Bool
  | equal, order => order == .eq
  | unequal, order => order != .eq
  | less, order => order == .lt
  | lessEqual, order => order != .gt
  | greater, order => order == .gt
  | greaterEqual, order => order != .lt

/-- The result of a comparison of two cells that are not null. -/
def ComparisonOp.apply (op : ComparisonOp) (left right : Cell) : Cell :=
  match left.order? right with
  | some order => .bool (op.holds order)
  | none => .null

/-- Three-valued logic: a null operand leaves the result open unless the other one decides it. -/
def LogicalOp.apply (op : LogicalOp) (left right : Cell) : Cell :=
  let decisive := match op with
    | and => false
    | or => true
  match left.asBool?, right.asBool? with
  | some left, some right =>
    .bool (if left = decisive ∨ right = decisive then decisive else !decisive)
  | some value, none | none, some value => if value = decisive then .bool decisive else .null
  | none, none => .null

/-- The result of an operator between two operands. -/
def BinaryOp.apply (op : BinaryOp) (left right : Cell) : Cell :=
  match op with
  | logical op => op.apply left right
  | arithmetic op => if left.isNull || right.isNull then .null else op.apply left right
  | comparison op => if left.isNull || right.isNull then .null else op.apply left right

/-- The result of an operator on one operand. -/
def UnaryOp.apply (op : UnaryOp) (operand : Cell) : Cell :=
  match op, operand with
  | isNull, value => .bool value.isNull
  | isNotNull, value => .bool !value.isNull
  | negate, .int value => intOr (-value.toInt) (-(Number.toFloat value))
  | negate, .float value => .float (-value)
  | not, .bool value => .bool !value
  | _, _ => .null

/-- The value as another type; a value that the cast does not concern stays as it is. -/
def Cell.castTo (type : CellType) : Cell → Cell
  | .bool value =>
    match type with
    | .int => .int (if value then 1 else 0)
    | .float => .float (if value then 1.0 else 0.0)
    | _ => .bool value
  | .int value =>
    match type with
    | .float => .float (Number.toFloat value)
    | .text => .text (toString value.toInt)
    | _ => .int value
  | .float value =>
    match type with
    | .int => .int (Number.truncate value)
    | _ => .float value
  | cell => cell

/-- A text without the spaces at its ends. -/
def stripSpaces (text : String) : String :=
  String.ofList ((text.toList.dropWhile (· == ' ')).reverse.dropWhile (· == ' ')).reverse

/-- The value of a function other than `coalesce` on arguments that are not null. -/
def ScalarFunction.onValues (function : ScalarFunction) (arguments : List Cell) : Cell :=
  match function, arguments with
  | round digits, [value] =>
    match value.asFloat? with
    | some value => .float (Number.roundTo value digits)
    | none => .null
  | abs, [.int value] => intOr value.toInt.natAbs (Number.toFloat value).abs
  | abs, [.float value] => .float value.abs
  | sqrt, [value] =>
    match value.asFloat? with
    | some value => if 0.0 ≤ value then .float value.sqrt else .null
    | none => .null
  | pow, [base, exponent] =>
    match base.asFloat?, exponent.asFloat? with
    | some base, some exponent => .float (base.pow exponent)
    | _, _ => .null
  | strip, [.text value] => .text (stripSpaces value)
  | _, _ => .null

/-- The value of a function on its arguments. -/
def ScalarFunction.apply (function : ScalarFunction) (arguments : List Cell) : Cell :=
  match function with
  | coalesce => (arguments.find? (!·.isNull)).getD .null
  | _ => if arguments.any Cell.isNull then .null else function.onValues arguments

namespace Expr

mutual

/-- The value of an expression in a row. -/
def eval (row : Row) : Expr Nat → Cell
  | column position => row.cell position
  | literal value => value
  | cast operand type => (operand.eval row).castTo type
  | binary op left right => op.apply (left.eval row) (right.eval row)
  | unary op operand => op.apply (operand.eval row)
  | call function arguments => function.apply (evalAll row arguments)

/-- The values of arguments. -/
def evalAll (row : Row) : List (Expr Nat) → List Cell
  | [] => []
  | argument :: rest => argument.eval row :: evalAll row rest

end

/-- Does the expression hold in a row? Neither false nor null does. -/
def holds (predicate : Expr Nat) (row : Row) : Bool :=
  (predicate.eval row).same (.bool true)

end Expr

end TablePipeline
