import TablePipeline.Raw.Result

/-! # Tables as an engine keeps them

A table is loaded with one more column for the position of each row. Truth values are kept as
integers, NaN as null, and both zeros as the positive one. Names are read in either case, so a table
cannot be loaded if two of its columns differ in case alone, and a table that is loaded later takes
the place of an earlier one of its name. `LoadedTable.sorted` orders rows as an engine does: nulls
come first, then the numbers, then the texts.
-/

namespace TablePipeline

/-- Are two names the same to an engine? -/
def sameName (a b : String) : Bool :=
  a.toLower = b.toLower

/-- The place of the kind of a cell in the order of an engine. -/
def Cell.kindRank : Cell → Nat
  | .null => 0
  | .bool _ | .int _ | .float _ => 1
  | .text _ => 2

/-- The order of an engine, in which cells of all kinds can be compared. -/
def Cell.engineOrder (a b : Cell) : Ordering :=
  (compare a.kindRank b.kindRank).then ((a.order? b).getD .eq)

/-- Items ordered by a cell of each. Items whose cells tie keep their order. -/
def sortByCell (descending : Bool) (cell : α → Cell) (items : List α) : List α :=
  items.mergeSort fun a b =>
    let order := (cell a).engineOrder (cell b)
    (if descending then order.swap else order) != .gt

/-- A table as an engine keeps it. -/
structure LoadedTable where
  columns : List ResultColumn
  rows : List Row

namespace LoadedTable

/-- A cell as an engine keeps it. -/
def cell : Cell → Cell
  | .bool value => .int (if value then 1 else 0)
  | .float value => if value.isNaN then .null else .float (Number.canonical value)
  | value => value

/-- The columns of a table, and the position last. -/
def columnsOf (table : Table) : List ResultColumn :=
  table.schema.columns.map (fun column => ⟨column.name, some column.type⟩) ++
    [⟨positionColumn, some .int⟩]

/-- The loaded form of a table. -/
def ofTable (table : Table) : Except RunError LoadedTable :=
  let columns := columnsOf table
  let rows := table.rows.zipIdx.map fun (row, position) =>
    row.map cell ++ [.int (Int64.ofNat position)]
  match (columns.zipIdx.find? fun (column, index) =>
      (columns.take index).any fun earlier => sameName earlier.name column.name) with
  | some (column, _) => .error (.engine s!"duplicate column name: {column.name}")
  | none => .ok ⟨columns, rows⟩

/-- No columns and one row, which a selection without a table reads. -/
def single : LoadedTable where
  columns := []
  rows := [[]]

/-- The position of a column. -/
def position? (table : LoadedTable) (name : String) : Option Nat :=
  table.columns.findIdx? fun column => sameName column.name name

/-- The table with its rows in the order of a column. -/
def sorted (table : LoadedTable) (descending : Bool) (position : Nat) : LoadedTable :=
  { table with rows := sortByCell descending (·.cell position) table.rows }

end LoadedTable

/-- The tables that an engine has loaded, the first one first. -/
abbrev LoadedTables := List (String × LoadedTable)

/-- The table of a name. -/
def LoadedTables.get (tables : LoadedTables) (name : String) : Except RunError LoadedTable :=
  match tables.reverse.find? fun (other, _) => sameName other name with
  | some (_, table) => .ok table
  | none => .error (.engine s!"no such table: {name}")

end TablePipeline
