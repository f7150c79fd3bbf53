import TablePipeline.Chain.Error

/-! # Expressions

A scalar expression over the columns of one row. Columns are referred to by name when an expression
is written and by position once it is bound to a schema; the reference type is a parameter, so that
both are the same kind of tree. Aggregates, window functions and ordering keys are built on top.
-/

namespace TablePipeline

/-- Operators between numbers. Division always gives a double. -/
inductive ArithmeticOp where
  | add
  | subtract
  | multiply
  | divide
deriving DecidableEq, Repr

/-- Operators that compare. -/
inductive ComparisonOp where
  | equal
  | unequal
  | less
  | lessEqual
  | greater
  | greaterEqual
deriving DecidableEq, Repr

/-- Operators between truth values. -/
inductive LogicalOp where
  | and
  | or
deriving DecidableEq, Repr

/-- Operators between two operands. -/
inductive BinaryOp where
  | arithmetic (op : ArithmeticOp)
  | comparison (op : ComparisonOp)
  | logical (op : LogicalOp)
deriving DecidableEq, Repr

/-- All operators between two operands. -/
def BinaryOp.all : List BinaryOp :=
  [.add, .subtract, .multiply, .divide].map arithmetic ++
    [.equal, .unequal, .less, .lessEqual, .greater, .greaterEqual].map comparison ++
    [.and, .or].map logical

/-- The written form of an operator. -/
def BinaryOp.symbol : BinaryOp → String
  | arithmetic .add => "+"
  | arithmetic .subtract => "-"
  | arithmetic .multiply => "*"
  | arithmetic .divide => "/"
  | comparison .equal => "="
  | comparison .unequal => "<>"
  | comparison .less => "<"
  | comparison .lessEqual => "<="
  | comparison .greater => ">"
  | comparison .greaterEqual => ">="
  | logical .and => "AND"
  | logical .or => "OR"

/-- Operators on one operand. -/
inductive UnaryOp where
  | negate
  | not
  | isNull
  | isNotNull
deriving DecidableEq, Repr

/-- Scalar functions. -/
inductive ScalarFunction where
  /-- Rounds to decimal digits, a half away from zero. Negative digits round to tens, hundreds and
  so on. -/
  | round (digits : Int32)
  | abs
  /-- The square root, null for a negative number. -/
  | sqrt
  | pow
  /-- Removes the spaces at both ends. -/
  | strip
  /-- The first argument that is not null. -/
  | coalesce
deriving DecidableEq

namespace ScalarFunction

/-- The written name of a function. -/
def name : ScalarFunction → String
  | round _ => "round"
  | abs => "abs"
  | sqrt => "sqrt"
  | pow => "pow"
  | strip => "strip"
  | coalesce => "coalesce"

/-- The number of arguments of a function that has a fixed number. -/
def arity? : ScalarFunction → Option Nat
  | round _ | abs | sqrt | strip => some 1
  | pow => some 2
  | coalesce => none

end ScalarFunction

/-- A scalar expression whose columns are referred to by values of type `ρ`. -/
inductive Expr (ρ : Type) where
  | column (reference : ρ)
  | literal (value : Cell)
  | cast (operand : Expr ρ) (type : CellType)
  | binary (op : BinaryOp) (left right : Expr ρ)
  | unary (op : UnaryOp) (operand : Expr ρ)
  | call (function : ScalarFunction) (arguments : List (Expr ρ))

namespace Expr

instance : Inhabited (Expr ρ) := ⟨literal .null⟩

/-- The conjunction of two expressions. -/
def and (left right : Expr ρ) : Expr ρ :=
  binary (.logical .and) left right

/-- Is the expression the bare null? -/
def isNullLiteral : Expr ρ → Bool
  | literal .null => true
  | _ => false

mutual

/-- The number of nodes. -/
def size : Expr ρ → Nat
  | column _ | literal _ => 1
  | cast operand _ | unary _ operand => 1 + operand.size
  | binary _ left right => 1 + left.size + right.size
  | call _ arguments => 1 + sizeAll arguments

@[inherit_doc size]
def sizeAll : List (Expr ρ) → Nat
  | [] => 0
  | argument :: rest => argument.size + sizeAll rest

end

mutual

/-- The column references, from left to right. -/
def references : Expr ρ → List ρ
  | column reference => [reference]
  | literal _ => []
  | cast operand _ | unary _ operand => operand.references
  | binary _ left right => left.references ++ right.references
  | call _ arguments => referencesAll arguments

@[inherit_doc references]
def referencesAll : List (Expr ρ) → List ρ
  | [] => []
  | argument :: rest => argument.references ++ referencesAll rest

end

/-- The names of the columns an expression refers to, each once, in order of first use. -/
def columns (expr : Expr String) : List String :=
  expr.references.eraseDups

/-- The operands of the outermost conjunctions. -/
def conjuncts : Expr ρ → List (Expr ρ)
  | binary (.logical .and) left right => left.conjuncts ++ right.conjuncts
  | expr => [expr]

/-- The conjunction of some expressions, grouped to the left. -/
def conjunction? : List (Expr ρ) → Option (Expr ρ)
  | [] => none
  | expr :: rest => some (rest.foldl and expr)

mutual

/-- The expression with its columns resolved to positions. -/
def bind (schema : Schema) : Expr String → Except ChainError (Expr Nat)
  | column name => return column (← schema.resolve .evaluation name)
  | literal value => return literal value
  | cast operand type => return cast (← operand.bind schema) type
  | binary op left right => return binary op (← left.bind schema) (← right.bind schema)
  | unary op operand => return unary op (← operand.bind schema)
  | call function arguments => return call function (← bindAll schema arguments)

@[inherit_doc bind]
def bindAll (schema : Schema) : List (Expr String) → Except ChainError (List (Expr Nat))
  | [] => return []
  | argument :: rest => return (← argument.bind schema) :: (← bindAll schema rest)

end

end Expr

/-- Aggregate functions. -/
inductive AggregateFunction where
  /-- The number of values that are not null. -/
  | count
  /-- The number of rows. -/
  | countRows
  | sum
  | mean
  | min
  | max
deriving DecidableEq, Repr

/-- All aggregate functions, in order. -/
def AggregateFunction.all : List AggregateFunction := [count, countRows, sum, mean, min, max]

/-- The written name of a function. -/
def AggregateFunction.name : AggregateFunction → String
  | count => "count"
  | countRows => "count_rows"
  | sum => "sum"
  | mean => "mean"
  | min => "min"
  | max => "max"

/-- An aggregate over the rows of a group. -/
structure Aggregate where
  function : AggregateFunction
  argument : Option (Expr String)

/-- Window functions; each is defined by an ordering of the rows of a partition. -/
inductive WindowFunction where
  /-- The position of a row in its partition, from one. -/
  | rowNumber
  /-- The position of the first row that ties with this one, from one. -/
  | rank
  /-- The value in the row so many places further on, or null. -/
  | lead (argument : Expr String) (offset : UInt32)
  /-- The value in the row so many places back, or null. -/
  | lag (argument : Expr String) (offset : UInt32)

namespace WindowFunction

/-- The written name of a function. -/
def name : WindowFunction → String
  | rowNumber => "row_number"
  | rank => "rank"
  | lead .. => "lead"
  | lag .. => "lag"

/-- The argument of a function that has one. -/
def argument? : WindowFunction → Option (Expr String)
  | rowNumber | rank => none
  | lead argument _ | lag argument _ => some argument

/-- Does the function give rows with equal keys one value? -/
def keepsTies : WindowFunction → Bool
  | rank => true
  | _ => false

/-- The value in the row `count` places back; a negative count looks ahead. Counts beyond 32 bits
are cut to the largest offset. -/
def shift (argument : Expr String) (count : Int64) : WindowFunction :=
  let offset := (Nat.min count.toInt.natAbs 4294967295).toUInt32
  if count < 0 then lead argument offset else lag argument offset

end WindowFunction

/-- Where nulls go in an order. -/
inductive NullPlacement where
  | first
  | last
deriving DecidableEq, Repr

/-- One key of an order. The direction applies to values; nulls go where the key says. -/
structure OrderKey where
  column : String
  descending : Bool
  nulls : NullPlacement
deriving DecidableEq, Repr

end TablePipeline
