import TablePipeline.Expr.Eval

/-! # Values on demand

An engine computes a value only where it is asked for one, and fails if the computation overflows.
A promise is the value together with the failures that asking for it would bring. A truth value can
also be tested, and a test stops at the first operand that decides it; in a test null counts as one
of the truth values. The value of the promise of an expression is the value of the expression.
-/

namespace TablePipeline

/-- A value that is computed when it is asked for. -/
structure Promise where
  cell : Cell
  /-- Does computing the value overflow? -/
  overflows : Bool
  /-- Does testing the value overflow, given what null counts as? -/
  testOverflows : Bool → Bool

namespace Promise

/-- A value that is tested by computing it. -/
def computed (cell : Cell) (overflows : Bool) : Promise :=
  ⟨cell, overflows, fun _ => overflows⟩

/-- A value that is there. -/
def kept (cell : Cell) : Promise :=
  computed cell false

instance : Inhabited Promise := ⟨kept .null⟩

/-- The outcome of a test. -/
def holds (promise : Promise) (nullAs : Bool) : Bool :=
  if promise.cell.isNull then nullAs else promise.cell.asBool?.getD false

/-- A cast. A cast to a number tests a truth value for being true, and then for being false. -/
def cast (type : CellType) (operand : Promise) : Promise :=
  computed (operand.cell.castTo type) (
    if type.isNumeric then
      operand.testOverflows false || (!operand.holds false && operand.testOverflows true)
    else operand.overflows)

/-- An operator between two operands. Computing it computes both. -/
def binary (op : BinaryOp) (left right : Promise) : Promise where
  cell := op.apply left.cell right.cell
  overflows := left.overflows || right.overflows
  testOverflows := fun nullAs =>
    match op with
    | .logical op =>
      left.testOverflows nullAs || (left.holds nullAs == (op = .and) && right.testOverflows nullAs)
    | _ => left.overflows || right.overflows

/-- An operator on one operand. A negation holds where its operand does not. -/
def unary (op : UnaryOp) (operand : Promise) : Promise where
  cell := op.apply operand.cell
  overflows := operand.overflows
  testOverflows := fun nullAs =>
    if op = .not then operand.testOverflows !nullAs else operand.overflows

/-- Does looking for the first value that is not null overflow? -/
def searchOverflows : List Promise → Bool
  | [] => false
  | argument :: rest => argument.overflows || (argument.cell.isNull && searchOverflows rest)

/-- A function on its arguments. The smallest integer has no absolute value. -/
def call (function : ScalarFunction) (arguments : List Promise) : Promise :=
  computed (function.apply (arguments.map (·.cell))) (
    if function = .coalesce then searchOverflows arguments
    else arguments.any (·.overflows) ||
      (function = .abs && arguments.map (·.cell) = [.int (Int64.ofInt Number.minInt)]))

end Promise

/-- The values of one row on demand. -/
abbrev PromisedRow := List Promise

namespace Expr

mutual

/-- The value of an expression in a row, on demand. -/
def promise (row : PromisedRow) : Expr Nat → Promise
  | column position => row[position]?.getD default
  | literal value => .kept value
  | cast operand type => (operand.promise row).cast type
  | binary op left right => .binary op (left.promise row) (right.promise row)
  | unary op operand => .unary op (operand.promise row)
  | call function arguments => .call function (promiseAll row arguments)

/-- The values of arguments, on demand. -/
def promiseAll (row : PromisedRow) : List (Expr Nat) → List Promise
  | [] => []
  | argument :: rest => argument.promise row :: promiseAll row rest

end

end Expr

end TablePipeline
