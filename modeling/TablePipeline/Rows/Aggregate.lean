import TablePipeline.Expr.Eval

/-! # Values of aggregates

An aggregate sees the values of its argument that are not null, in row order. Of no values, a count
is zero and everything else is null. A sum of integers is checked at every step: one that leaves 64
bits on the way has no value.
-/

namespace TablePipeline

/-- The sum of integers from the left, unless some partial sum does not fit. -/
def sumInts? (sum : Int64) : List Int64 → Option Int64
  | [] => some sum
  | value :: rest => (Number.int64? (sum.toInt + value.toInt)).bind (sumInts? · rest)

/-- The number of items as a cell. -/
def countCell (items : List α) : Cell :=
  .int (Int64.ofNat items.length)

/-- The sum of integers; none if it overflows. -/
def intSum? (values : List Cell) : Option Cell :=
  match values.filterMap Cell.asInt? with
  | [] => some .null
  | first :: rest => (sumInts? first rest).map Cell.int

/-- The sum of numbers as doubles, from the left. -/
def floatSum (values : List Cell) : Cell :=
  match values.filterMap Cell.asFloat? with
  | [] => .null
  | first :: rest => .float (rest.foldl (· + ·) first)

/-- The mean of numbers; their sum is taken from the left, starting at zero. -/
def meanCell (values : List Cell) : Cell :=
  match values.filterMap Cell.asFloat? with
  | [] => .null
  | numbers =>
    .float (numbers.foldl (· + ·) 0.0 / Number.toFloat (Int64.ofNat numbers.length))

/-- The first value that no later one goes beyond in the given direction. -/
def extreme (direction : Ordering) : List Cell → Cell
  | [] => .null
  | first :: rest =>
    rest.foldl (fun best value => if value.order? best = some direction then value else best) first

/-- The value of an aggregate over rows, given the type of its result; none if it overflows. -/
def AggregateFunction.apply? (function : AggregateFunction) (type : CellType)
    (argument : Option (Expr Nat)) (rows : List Row) : Option Cell :=
  match argument with
  | none => some (countCell rows)
  | some argument =>
    let values := (rows.map argument.eval).filter (!·.isNull)
    match function with
    | count | countRows => some (countCell values)
    | sum => if type = .int then intSum? values else some (floatSum values)
    | mean => some (meanCell values)
    | min => some (extreme .lt values)
    | max => some (extreme .gt values)

end TablePipeline
