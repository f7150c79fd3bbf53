import TablePipeline.Cell.Text
import TablePipeline.Table

/-! # Agreement of outputs

Outputs that should be equal are compared by a few metrics. The first output is the reference, and
every metric of every other output has to agree with it: doubles within a relative tolerance, all
other values exactly. The first metric that does not is reported.
-/

namespace TablePipeline

/-- What is computed from an output. -/
inductive Metric where
  | rows
  /-- The number of values of a column that are not null. -/
  | count (column : String)
  | sum (column : String)
  | mean (column : String)
deriving DecidableEq, Repr

/-- The written form of a metric. -/
def Metric.text : Metric → String
  | rows => "rows"
  | count column => s!"count({column})"
  | sum column => s!"sum({column})"
  | mean column => s!"mean({column})"

/-- How outputs are compared. -/
inductive Reduction where
  | single (metric : Metric)
  /-- The number of rows, the count of each column and the sum of each column that has one. -/
  | summary
deriving DecidableEq, Repr

namespace Reduction

/-- The written form of a reduction. -/
def text : Reduction → String
  | single .rows => "Rows"
  | single (.count column) => s!"Count({Text.quoted column})"
  | single (.sum column) => s!"Sum({Text.quoted column})"
  | single (.mean column) => s!"Mean({Text.quoted column})"
  | summary => "Summary"

/-- The metrics of a column in a summary. -/
def columnMetrics (column : Column) : List Metric :=
  .count column.name :: if column.type = .text then [] else [.sum column.name]

/-- The metrics of a reduction, chosen by the reference. -/
def metrics (reference : Schema) : Reduction → List Metric
  | single metric => [metric]
  | summary => .rows :: reference.columns.flatMap columnMetrics

end Reduction

/-- A metric on which an output differs from the reference. -/
structure Divergence where
  reference : String
  backend : String
  metric : String
  expected : Cell
  found : Cell
deriving DecidableEq

/-- Why outputs do not pass. -/
inductive ValidationError where
  | mismatch (divergence : Divergence)
  | empty
  | unknownColumn (backend column : String)
  | notNumeric (backend column : String) (type : CellType)
deriving DecidableEq

/-- The text of an error. -/
def ValidationError.message : ValidationError → String
  | mismatch divergence =>
    s!"Backend `{divergence.backend}` diverges on `{divergence.metric}`: " ++
      s!"found {divergence.found.display}, `{divergence.reference}` has " ++
      divergence.expected.display
  | empty => "Nothing to compare"
  | unknownColumn backend column => s!"Output of backend `{backend}` has no column `{column}`"
  | notNumeric backend column type =>
    s!"Column `{column}` of backend `{backend}` is {type.name}, expected a numeric column"

/-- A table that a backend gave. -/
structure Output where
  backend : String
  table : Table

namespace Output

/-- The type of a column and its values that are not null. -/
def column (output : Output) (name : String) : Except ValidationError (CellType × List Cell) :=
  match output.table.schema.column? name, output.table.column? name with
  | some column, some values => .ok (column.type, values.filter (!·.isNull))
  | _, _ => .error (.unknownColumn output.backend name)

/-- The sum of values of a type that has sums. A sum of integers is exact, and a double where 64
bits do not hold it; a sum of doubles starts at minus zero; a sum of truth values counts the true
ones. -/
def sumOf (values : List Cell) : CellType → Option Cell
  | .int =>
    let total := (values.filterMap Cell.asInt?).foldl (fun total value => total + value.toInt) 0
    match Number.int64? total with
    | some value => some (.int value)
    | none => some (.float (Float.ofInt total))
  | .float => some (.float ((values.filterMap Cell.asFloat?).foldl (· + ·) (-0.0)))
  | .bool => some (.int (Int64.ofNat (values.filter (·.asBool? = some true)).length))
  | .text => none

/-- The mean of numbers; null if there are none. -/
def meanOf (values : List Cell) : Cell :=
  match values.filterMap Cell.asFloat? with
  | [] => .null
  | numbers =>
    .float (numbers.foldl (· + ·) 0.0 / Number.toFloat (Int64.ofNat numbers.length))

/-- The value of a metric. -/
def evaluate (output : Output) : Metric → Except ValidationError Cell
  | .rows => .ok (.int (Int64.ofNat output.table.rows.length))
  | .count name => do
    let (_, values) ← output.column name
    return .int (Int64.ofNat values.length)
  | .sum name => do
    let (type, values) ← output.column name
    match sumOf values type with
    | some total => return total
    | none => throw (.notNumeric output.backend name type)
  | .mean name => do
    let (type, values) ← output.column name
    if type.isNumeric then return meanOf values
    throw (.notNumeric output.backend name type)

end Output

namespace Number

/-- The larger of two doubles that are not NaN. -/
def larger (a b : Float) : Float :=
  if a < b then b else a

/-- Are two doubles equal, or no further apart than the tolerance allows for the larger one? -/
def close (tolerance a b : Float) : Bool :=
  if a.isNaN || b.isNaN then a.isNaN && b.isNaN
  else a == b || (a - b).abs ≤ tolerance * larger a.abs b.abs

end Number

/-- Do two values of a metric agree? As soon as one of two numbers is a double, both are compared as
doubles, within the tolerance. -/
def Cell.agrees (tolerance : Float) (expected found : Cell) : Bool :=
  match expected, found with
  | .float a, .float b => Number.close tolerance a b
  | .float a, .int b => Number.close tolerance a (Number.toFloat b)
  | .int a, .float b => Number.close tolerance (Number.toFloat a) b
  | _, _ => expected.same found

/-- Compares the metrics of an output with those of the reference. -/
def checkOutput (reference : String) (tolerance : Float) (output : Output) :
    List (Metric × Cell) → Except ValidationError Unit
  | [] => .ok ()
  | (metric, expected) :: rest => do
    let found ← output.evaluate metric
    if expected.agrees tolerance found then checkOutput reference tolerance output rest
    else throw (.mismatch ⟨reference, output.backend, metric.text, expected, found⟩)

/-- Compares all outputs with the first one, and gives its metrics. -/
def validate (reduction : Reduction) (tolerance : Float) (outputs : List Output) :
    Except ValidationError (List (Metric × Cell)) :=
  match outputs with
  | [] => .error .empty
  | reference :: others => do
    let metrics := reduction.metrics reference.table.schema
    let expected ← metrics.mapM reference.evaluate
    let pairs := metrics.zip expected
    let _ ← others.mapM (checkOutput reference.backend tolerance · pairs)
    return pairs

end TablePipeline
