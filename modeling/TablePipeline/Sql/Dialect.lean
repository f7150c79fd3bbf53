import TablePipeline.Sql.Basic
import TablePipeline.Expr.Eval
import TablePipeline.Expr.Printer

/-! # What differs between dialects

Type names, casts, means and the scalar functions an engine offers. Both dialects place nulls
explicitly in every order and divide in doubles, with null for a zero divisor.
-/

namespace TablePipeline

/-- The column type that holds cells of a type. SQLite keeps truth values as integers. -/
def Dialect.typeName : Dialect → CellType → String
  | sqlite, .bool | sqlite, .int => "INTEGER"
  | sqlite, .float => "REAL"
  | sqlite, .text | postgres, .text => "TEXT"
  | postgres, .bool => "BOOLEAN"
  | postgres, .int => "BIGINT"
  | postgres, .float => "DOUBLE PRECISION"

namespace Sql

/-- A call of a function. -/
def call (function : String) (arguments : List Sql) : Sql :=
  words (function ++ "(") ++ separated ", " arguments ++ words ")"

/-- A value cast to a type. -/
def cast (operand : Sql) (type : String) : Sql :=
  words "CAST(" ++ operand ++ words (" AS " ++ type ++ ")")

/-- Division in doubles, null for a zero divisor. -/
def divide (dialect : Dialect) (left right : Sql) : Sql :=
  words "(" ++ left.cast (dialect.typeName .float) ++ words " / NULLIF(" ++ right ++ words ", 0))"

/-- An operator between two operands. -/
def binary (dialect : Dialect) (op : BinaryOp) (left right : Sql) : Sql :=
  match op with
  | .arithmetic .divide => divide dialect left right
  | _ => words "(" ++ left ++ words (" " ++ op.symbol ++ " ") ++ right ++ words ")"

/-- An operator on one operand. -/
def unary (op : UnaryOp) (operand : Sql) : Sql :=
  match op with
  | .negate => words "(-" ++ operand ++ words ")"
  | .not => words "(NOT " ++ operand ++ words ")"
  | .isNull => words "(" ++ operand ++ words " IS NULL)"
  | .isNotNull => words "(" ++ operand ++ words " IS NOT NULL)"

/-- One and zero for a truth value, and null for null. -/
def truthNumber (operand : Sql) : Sql :=
  words "(CASE WHEN " ++ operand ++ words " THEN 1 WHEN NOT " ++ operand ++ words " THEN 0 END)"

/-- A cast between types. Doubles lose their fraction on the way to integers, also on an engine that
would round them. -/
def convert (dialect : Dialect) (operand : Sql) (source target : CellType) : Sql :=
  match source, target with
  | .bool, .int | .bool, .float => operand.truthNumber.cast (dialect.typeName target)
  | .float, .int =>
    match dialect with
    | .sqlite => operand.cast (dialect.typeName target)
    | .postgres => (call "TRUNC" [operand]).cast (dialect.typeName target)
  | _, _ => operand.cast (dialect.typeName target)

/-- Rounding to decimal digits. SQLite takes no negative digits, so the value is scaled instead. -/
def round (dialect : Dialect) (digits : Int32) (operand : Sql) : Sql :=
  match dialect with
  | .sqlite =>
    if 0 ≤ digits then call "ROUND" [operand, words (toString digits.toInt)]
    else
      let scale := Number.text .literal (Number.tenPower (-digits))
      words "(" ++ call "ROUND" [operand ++ words (" / " ++ scale)] ++ words (" * " ++ scale ++ ")")
  | .postgres =>
    (call "ROUND" [operand.cast "NUMERIC", words (toString digits.toInt)]).cast
      (dialect.typeName .float)

/-- A scalar function, if the engine has it. Roots and powers are an optional part of SQLite. -/
def scalar? (dialect : Dialect) (function : ScalarFunction) (arguments : List Sql) : Option Sql :=
  match function, arguments with
  | .round digits, [operand] => some (round dialect digits operand)
  | .abs, [operand] => some (call "ABS" [operand])
  | .strip, [operand] => some (call "TRIM" [operand])
  | .coalesce, first :: rest => some (call "COALESCE" (first :: rest))
  | .sqrt, [operand] =>
    match dialect with
    | .sqlite => none
    | .postgres =>
      some (words "(CASE WHEN " ++ operand ++ words " >= 0 THEN " ++ call "SQRT" [operand] ++
        words " END)")
  | .pow, [base, exponent] =>
    match dialect with
    | .sqlite => none
    | .postgres => some (call "POWER" [base.cast (dialect.typeName .float), exponent])
  | _, _ => none

/-- An aggregate. Without an argument it is over all rows. -/
def aggregate (dialect : Dialect) (function : AggregateFunction) (argument : Option Sql) : Sql :=
  let arguments := [argument.getD (words "*")]
  match function with
  | .count | .countRows => call "COUNT" arguments
  | .sum => call "SUM" arguments
  | .min => call "MIN" arguments
  | .max => call "MAX" arguments
  | .mean =>
    match dialect with
    | .sqlite => call "AVG" arguments
    | .postgres => (call "AVG" arguments).cast (dialect.typeName .float)

/-- One key of an order. -/
def orderTerm (key : OrderKey) : Sql :=
  name key.column ++ words (" " ++ key.directionText)

end Sql

end TablePipeline
