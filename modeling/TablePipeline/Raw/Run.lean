import TablePipeline.Raw.Loaded
import TablePipeline.Raw.Query
import TablePipeline.Raw.Select

/-! # Running hand-written queries

A selection is resolved against the table that it reads, which gives its columns with the cell each
has in a row. The order of a query is looked for among the names that the query itself gives to
columns, and then among the columns of the table.
-/

namespace TablePipeline

/-- A column of a selection. -/
structure SelectedColumn where
  column : ResultColumn
  /-- Does the query give the column its name? Only then can the name order the rows. -/
  labelled : Bool
  cell : Row → Cell

/-- A selection over the table that it reads. -/
structure ResolvedSelection where
  table : LoadedTable
  columns : List SelectedColumn

namespace SelectItem

/-- The column of a value, under a name or as it is written. -/
def valueColumn (table : LoadedTable) (label : Option String) (text : String) :
    SelectedValue → Except RunError SelectedColumn
  | .literal value => .ok ⟨⟨label.getD text, none⟩, label.isSome, fun _ => value⟩
  | .column name =>
    match table.position? name with
    | none => .error (.engine s!"no such column: {name}")
    | some position =>
      let found := table.columns[position]?
      let own := (found.map (·.name)).getD name
      .ok ⟨⟨label.getD own, found.bind (·.declared)⟩, label.isSome, (·.cell position)⟩

/-- The columns of an item. All columns of a table come under their names. -/
def columns (table : LoadedTable) : SelectItem → Except RunError (List SelectedColumn)
  | all =>
    if table.columns.isEmpty then .error (.engine "no tables specified")
    else .ok (table.columns.zipIdx.map fun (column, position) => ⟨column, true, (·.cell position)⟩)
  | named value name => do return [← valueColumn table (some name) name value]
  | bare value text => do return [← valueColumn table none text value]

end SelectItem

/-- The selection over the table that it reads. -/
def Selection.resolve (tables : LoadedTables) (selection : Selection) :
    Except RunError ResolvedSelection := do
  let table ← match selection.table with
    | none => pure LoadedTable.single
    | some name => tables.get name
  let columns ← selection.items.mapM (·.columns table)
  return ⟨table, columns.flatten⟩

namespace ResolvedSelection

/-- The rows that the selection gives. -/
def rows (selection : ResolvedSelection) : List Row :=
  selection.table.rows.map fun row => selection.columns.map (·.cell row)

/-- The position of the first column that the query names so. -/
def label? (selection : ResolvedSelection) (name : String) : Option Nat :=
  selection.columns.findIdx? fun column => column.labelled && sameName column.column.name name

/-- The selection over its table in the order of a column of the table. -/
def sorted (selection : ResolvedSelection) (order : SelectOrder) :
    Except RunError ResolvedSelection :=
  match selection.table.position? order.column with
  | some position =>
    .ok { selection with table := selection.table.sorted order.descending position }
  | none => .error (.engine s!"no such column: {order.column}")

end ResolvedSelection

namespace SelectQuery

/-- The rows of all selections in the order of the query. -/
def orderedRows (order : Option SelectOrder) (selections : List ResolvedSelection) :
    Except RunError (List Row) :=
  let rows := selections.flatMap (·.rows)
  match order with
  | none => .ok rows
  | some order =>
    match selections.findSome? (·.label? order.column), selections with
    | some position, _ => .ok (sortByCell order.descending (·.cell position) rows)
    | none, [selection] => do return (← selection.sorted order).rows
    | none, _ => .error (.engine "1st ORDER BY term does not match any column in the result set")

/-- The result of a query: the rows of all selections under the columns of the first one. -/
def run (tables : LoadedTables) (query : SelectQuery) : Except RunError ResultSet := do
  let selections ← query.selections.mapM (·.resolve tables)
  let columns := (selections.head?.map (·.columns)).getD []
  if selections.any (·.columns.length ≠ columns.length) then
    throw (.engine
      "SELECTs to the left and right of UNION ALL do not have the same number of result columns")
  return ⟨columns.map (·.column), ← orderedRows query.order selections⟩

end SelectQuery

namespace RawQuery

/-- The tables that the query refers to, loaded one after another. -/
def load (inputs : Inputs) (query : RawQuery) : Except RunError LoadedTables :=
  query.bindings.mapM fun name => do return (name, ← LoadedTable.ofTable (← inputs.get name))

/-- What an engine hands back for the query. -/
def result (tables : LoadedTables) (query : RawQuery) : Except RunError ResultSet :=
  match SelectQuery.ofText? query.resolve with
  | some select => select.run tables
  | none => .error (.engine s!"cannot read the query `{query.name}`")

/-- The table that the result makes under the schema of the query, or under an inferred one. -/
def tableOf (query : RawQuery) (result : ResultSet) : Except RunError Table := do
  let schema ← match query.schema with
    | some schema => pure schema
    | none => result.infer
  (Table.ofRows query.name schema (← result.conform schema)).mapError .table

/-- An error as an engine tells it: an input that is not there is a table that was not loaded. -/
def errorOfEngine : RunError → RunError
  | .missingInput name => .engine s!"no such table: {name}"
  | error => error

/-- The table that the query gives. All tables it refers to are loaded first. A query with a meaning
gives what that chain gives, under its own name. -/
def run (inputs : Inputs) (query : RawQuery) : Except RunError Table := do
  let tables ← query.load inputs
  match query.meaning with
  | some chain => return (← (chain.run inputs).mapError errorOfEngine).rename query.name
  | none => query.tableOf (← query.result tables).visible

end RawQuery

end TablePipeline
