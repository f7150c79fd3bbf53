import TablePipeline.Chain.Run

/-! # Results of an engine

An engine hands back named columns and rows of untyped cells. `visible` drops the hidden position
and every column that a later one of its name shadows. `infer` finds a schema that all values fit,
and `conform` converts the values to a schema.
-/

namespace TablePipeline

/-- A column as an engine reports it. -/
structure ResultColumn where
  name : String
  /-- The type that the table declares, for a column that stands for one of a table. -/
  declared : Option CellType := none
deriving DecidableEq, Repr

/-- What an engine hands back. -/
structure ResultSet where
  columns : List ResultColumn
  rows : List Row

namespace ResultSet

/-- The values of a column that are not null. -/
def values (result : ResultSet) (position : Nat) : List Cell :=
  (result.rows.map (Row.cell · position)).filter (!·.isNull)

/-- Is the column at a position shown? The last one of each name is, but never the position. -/
def isVisible (columns : List ResultColumn) (position : Nat) : Bool :=
  match columns.drop position with
  | [] => false
  | column :: later => column.name ≠ positionColumn && later.all (·.name ≠ column.name)

/-- The result with only the columns that are shown. -/
def visible (result : ResultSet) : ResultSet :=
  let kept := (List.range result.columns.length).filter (isVisible result.columns)
  ⟨kept.filterMap (result.columns[·]?), result.rows.map (·.pick kept)⟩

/-- The type of some values: integers mixed with doubles are doubles, and a column without values is
one of doubles. -/
def commonType? (values : List Cell) : Except (List CellType) CellType :=
  match CellType.all.filter fun type => values.any (·.type? = some type) with
  | [] | [.int, .float] => .ok .float
  | [type] => .ok type
  | types => .error types

/-- The type of a column: the declared one if all values fit it. -/
def columnType (column : ResultColumn) (values : List Cell) : Except RunError CellType :=
  let common := (commonType? values).mapError fun types =>
    .schemaMismatch column.name "values of one type" (", ".intercalate (types.map (·.name)))
  match column.declared with
  | some type => if values.all fun cell => (cell.coerce? type).isSome then .ok type else common
  | none => common

/-- A schema that all values fit. -/
def infer (result : ResultSet) : Except RunError Schema := do
  let columns ← result.columns.zipIdx.mapM fun (column, position) => do
    return { name := column.name, type := ← columnType column (result.values position) : Column }
  (Schema.ofColumns columns).mapError .table

/-- A cell as a value of a column. -/
def conformCell (column : Column) (cell : Cell) : Except RunError Cell :=
  match cell.coerce? column.type with
  | some value => .ok value
  | none =>
    .error (.valueType column.name column.type ((cell.type?.map (·.name)).getD "null"))

/-- The rows as values of a schema with the same column names. -/
def conform (result : ResultSet) (schema : Schema) : Except RunError (List Row) :=
  let names := result.columns.map (·.name)
  if names = schema.names then
    result.rows.mapM fun row =>
      (row.zip schema.columns).mapM fun (cell, column) => conformCell column cell
  else
    .error (.schemaMismatch "*" (", ".intercalate schema.names) (", ".intercalate names))

end ResultSet

end TablePipeline
