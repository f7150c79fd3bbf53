import TablePipeline.Cell.Text
import TablePipeline.Expr.Basic

/-! # Written expressions

The canonical text of an expression has parentheses around every operator. Column names are written
as they are.
-/

namespace TablePipeline

/-- A text between single quotes, with the quotes inside written twice. -/
def singleQuoted (text : String) : String :=
  let doubled := text.toList.flatMap fun char => if char = '\'' then ['\'', '\''] else [char]
  "'" ++ String.ofList doubled ++ "'"

/-- The written form of a literal. -/
def literalText : Cell → String
  | .text value => singleQuoted value
  | .float value => Number.text .literal value
  | cell => cell.display

namespace Expr

/-- The written form of a function call. -/
def callText (function : ScalarFunction) (arguments : List String) : String :=
  let list := ", ".intercalate arguments
  match function with
  | .round digits => s!"round({list}, {toString digits.toInt})"
  | _ => s!"{function.name}({list})"

/-- The written form of an operator around its operand. -/
def unaryText (op : UnaryOp) (operand : String) : String :=
  match op with
  | .negate => s!"(-{operand})"
  | .not => s!"(NOT {operand})"
  | .isNull => s!"({operand} IS NULL)"
  | .isNotNull => s!"({operand} IS NOT NULL)"

mutual

/-- The written form of an expression. -/
def text : Expr String → String
  | column name => name
  | literal value => literalText value
  | cast operand type => s!"cast({operand.text} as {type.name})"
  | binary op left right => s!"({left.text} {op.symbol} {right.text})"
  | unary op operand => unaryText op operand.text
  | call function arguments => callText function (texts arguments)

/-- The written forms of arguments. -/
def texts : List (Expr String) → List String
  | [] => []
  | argument :: rest => argument.text :: texts rest

end

end Expr

/-- The written form of an aggregate. -/
def Aggregate.text (aggregate : Aggregate) : String :=
  aggregate.function.name ++ "(" ++ (aggregate.argument.map Expr.text).getD "" ++ ")"

/-- The written form of a window function. -/
def WindowFunction.text (function : WindowFunction) : String :=
  match function with
  | rowNumber | rank => s!"{function.name}()"
  | lead argument offset | lag argument offset =>
    s!"{function.name}({argument.text}, {toString offset.toNat})"

/-- The direction and the placement of nulls, as written after a column. -/
def OrderKey.directionText (key : OrderKey) : String :=
  (if key.descending then "DESC" else "ASC") ++ " NULLS " ++
    match key.nulls with
    | .first => "FIRST"
    | .last => "LAST"

/-- The written form of an ordering key. -/
def OrderKey.text (key : OrderKey) : String :=
  s!"{key.column} {key.directionText}"

end TablePipeline
