import TablePipeline.Expr.Printer

/-! # Types of expressions

The type of an expression over the columns of a schema, and whether its value may be null. An
expression is taken to be nullable unless it cannot produce a null.
-/

namespace TablePipeline

/-- An inferred type. -/
structure ValueType where
  type : CellType
  nullable : Bool
deriving DecidableEq, Repr

namespace ValueType

/-- The column that holds values of this type. -/
def column (value : ValueType) (name : String) : Column :=
  ⟨name, value.type, value.nullable⟩

/-- The type itself, if its values are numbers. -/
def numeric (context : String) (value : ValueType) : Except ChainError ValueType :=
  if value.type.isNumeric then .ok value
  else .error (.typeMismatch context .numeric value.type)

/-- The type itself, if it is the given one. -/
def expect (context : String) (type : CellType) (value : ValueType) :
    Except ChainError ValueType :=
  if value.type = type then .ok value else .error (.typeMismatch context (.exactly type) value.type)

end ValueType

/-- Can a value of one type be cast to another? -/
def CellType.castsTo : CellType → CellType → Bool
  | .int, .int | .int, .float | .int, .text => true
  | .float, .int | .float, .float => true
  | .bool, .int | .bool, .float | .bool, .bool => true
  | .text, .text => true
  | _, _ => false

/-- The type of an operator between two typed operands. -/
def BinaryOp.infer (op : BinaryOp) (context : String) (left right : ValueType) :
    Except ChainError ValueType := do
  let nullable := left.nullable || right.nullable
  match op with
  | arithmetic op =>
    let left ← left.numeric context
    let right ← right.numeric context
    if op = .divide then return ⟨.float, true⟩
    return ⟨(left.type.widest? right.type).getD .float, nullable⟩
  | comparison _ =>
    if left.type = right.type ∨ (left.type.widest? right.type).isSome then
      return ⟨.bool, nullable⟩
    throw (.typeMismatch context (.exactly left.type) right.type)
  | logical _ =>
    let _ ← left.expect context .bool
    let _ ← right.expect context .bool
    return ⟨.bool, nullable⟩

/-- The type of an operator on a typed operand. -/
def UnaryOp.infer (op : UnaryOp) (context : String) (operand : ValueType) :
    Except ChainError ValueType :=
  match op with
  | negate => operand.numeric context
  | not => operand.expect context .bool
  | isNull | isNotNull => .ok ⟨.bool, false⟩

/-- The common type of the arguments after the first. -/
def coalesceType (context : String) (type : CellType) :
    List ValueType → Except ChainError CellType
  | [] => .ok type
  | next :: rest =>
    if next.type = type then coalesceType context type rest
    else
      match type.widest? next.type with
      | some wider => coalesceType context wider rest
      | none => .error (.typeMismatch context (.exactly type) next.type)

/-- The type of a function of typed arguments. -/
def ScalarFunction.infer (function : ScalarFunction) (context : String)
    (arguments : List ValueType) : Except ChainError ValueType := do
  match function, arguments with
  | round _, [value] => return ⟨.float, (← value.numeric context).nullable⟩
  | abs, [value] => value.numeric context
  | sqrt, [value] =>
    let _ ← value.numeric context
    return ⟨.float, true⟩
  | pow, [base, exponent] =>
    -- A nullable base decides the type, and the exponent is then not looked at.
    if (← base.numeric context).nullable then return ⟨.float, true⟩
    return ⟨.float, (← exponent.numeric context).nullable⟩
  | strip, [value] => value.expect context .text
  | coalesce, first :: rest =>
    let type ← coalesceType context first.type rest
    return ⟨type, (first :: rest).all (·.nullable)⟩
  | _, _ => throw (.arity function.name (function.arity?.getD 1) arguments.length)

namespace Expr

mutual

/-- The type of an expression in a clause over the columns of a schema. -/
def infer (schema : Schema) (clause : Clause) : Expr String → Except ChainError ValueType
  | column name => do
    let column ← schema.resolveColumn clause name
    return ⟨column.type, column.nullable⟩
  | literal value =>
    match value.type? with
    | some type => .ok ⟨type, false⟩
    | none => .error .untypedNull
  | cast operand type =>
    if operand.isNullLiteral then .ok ⟨type, true⟩
    else do
      let source ← operand.infer schema clause
      if source.type.castsTo type then return ⟨type, source.nullable⟩
      throw (.invalidCast source.type type)
  | binary op left right => do
    let leftType ← left.infer schema clause
    let rightType ← right.infer schema clause
    op.infer (text (binary op left right)) leftType rightType
  | unary op operand => do
    let operandType ← operand.infer schema clause
    op.infer (text (unary op operand)) operandType
  | call function arguments =>
    match function.arity? with
    | some expected =>
      if expected = arguments.length then do
        function.infer (text (call function arguments)) (← inferAll schema clause arguments)
      else .error (.arity function.name expected arguments.length)
    | none => do
      function.infer (text (call function arguments)) (← inferAll schema clause arguments)

/-- The types of arguments. -/
def inferAll (schema : Schema) (clause : Clause) :
    List (Expr String) → Except ChainError (List ValueType)
  | [] => .ok []
  | argument :: rest => do
    let first ← argument.infer schema clause
    return first :: (← inferAll schema clause rest)

end

end Expr

/-- The type of an aggregate. A sum, a mean and an extreme of no values are null. -/
def Aggregate.infer (schema : Schema) (aggregate : Aggregate) : Except ChainError ValueType :=
  match aggregate.argument with
  | none =>
    if aggregate.function = .countRows then .ok ⟨.int, false⟩
    else .error (.arity aggregate.function.name 1 0)
  | some argument => do
    let value ← argument.infer schema .summarise
    match aggregate.function with
    | .count | .countRows => return ⟨.int, false⟩
    | .sum => return ⟨(← value.numeric argument.text).type, true⟩
    | .mean =>
      let _ ← value.numeric argument.text
      return ⟨.float, true⟩
    | .min | .max =>
      if value.type = .bool then throw (.typeMismatch argument.text .ordered value.type)
      return ⟨value.type, true⟩

/-- The type of a window function. -/
def WindowFunction.infer (schema : Schema) : WindowFunction → Except ChainError ValueType
  | rowNumber | rank => .ok ⟨.int, false⟩
  | lead argument _ | lag argument _ => do
    let value ← argument.infer schema .window
    return ⟨value.type, true⟩

end TablePipeline
