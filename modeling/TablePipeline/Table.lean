import TablePipeline.Schema
import TablePipeline.Cell.Encoding

/-! # Tables

A table is a named list of rows under a schema. Every way to build one checks the rows in order, and
the cells of a row in order: the first fault found is the error. Integers in a column of doubles
become doubles on the way in.
-/

namespace TablePipeline

/-- A named list of rows under a schema. -/
structure Table where
  name : String
  schema : Schema
  rows : List Row

namespace Table

/-- A cell as its column holds it. -/
def admitCell (table : String) (row : Nat) (column : Column) (cell : Cell) :
    Except TableError Cell :=
  match cell, cell.type? with
  | _, none =>
    if column.nullable then .ok cell else .error (.nullViolation table column.name row)
  | .int value, some .int =>
    if column.type = .int then .ok cell
    else if column.type = .float then .ok (.float (Number.toFloat value))
    else .error (.mismatch table column.name row column.type .int)
  | _, some found =>
    if found = column.type then .ok cell
    else .error (.mismatch table column.name row column.type found)

/-- A row as the table holds it. -/
def admitRow (table : String) (schema : Schema) (index : Nat) (row : Row) :
    Except TableError Row :=
  if row.length = schema.width then
    (schema.columns.zip row).mapM fun (column, cell) => admitCell table index column cell
  else
    .error (.arity table index schema.width row.length)

/-- The table of the given rows, if they fit the schema. -/
def ofRows (name : String) (schema : Schema) (rows : List Row) : Except TableError Table := do
  let rows ← rows.zipIdx.mapM fun (row, index) => admitRow name schema index row
  return { name, schema, rows }

/-- The rows that run across columns of one length. -/
def transpose (columns : List (List Cell)) : List Row :=
  (List.range (columns.head?.map List.length |>.getD 0)).map fun i => columns.map (Row.cell · i)

/-- The table of the given columns, if they have one length and fit the schema. -/
def ofColumns (name : String) (schema : Schema) (columns : List (List Cell)) :
    Except TableError Table :=
  if columns.all (·.length = (columns.head?.map List.length |>.getD 0)) then
    ofRows name schema (transpose columns)
  else
    .error (.ragged name)

/-- The table without rows. -/
def empty (name : String) (schema : Schema) : Table where
  name := name
  schema := schema
  rows := []

/-- The table under another name. -/
def rename (table : Table) (name : String) : Table :=
  { table with name }

/-- The values of a column. -/
def column? (table : Table) (name : String) : Option (List Cell) :=
  (table.schema.position? name).map fun position => table.rows.map (Row.cell · position)

/-- The bytes of a column name and type. -/
def encodeColumn (column : Column) : Bytes :=
  Bytes.counted (Bytes.ofText column.name) ++ Bytes.ofText column.type.name

/-- The bytes of a table's content: the shape of its schema, then its cells. Its name, its keys and
which columns admit null are not part of the content. -/
def encode (table : Table) : Bytes :=
  Bytes.ofText "table" ++ Bytes.word table.schema.width ++
    table.schema.columns.flatMap encodeColumn ++ Bytes.word table.rows.length ++
    table.rows.flatMap fun row => row.flatMap Cell.encode

end Table

end TablePipeline
