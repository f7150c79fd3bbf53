import TablePipeline.Cell.Basic

/-! # Schemas

A schema lists the named and typed columns of a table and the keys declared over them. Column names
are distinct: `Schema.ofColumns` is the only way in that checks them. Keys are lists of positions; a
primary key makes its columns not null.
-/

namespace TablePipeline

/-- What is wrong with a schema or a table. -/
inductive TableError where
  | duplicateColumn (name : String)
  | unknownKeyColumn (name : String)
  | arity (table : String) (row expected found : Nat)
  | mismatch (table column : String) (row : Nat) (expected found : CellType)
  | nullViolation (table column : String) (row : Nat)
  | ragged (table : String)
deriving DecidableEq, Repr

/-- The text of an error. -/
def TableError.message : TableError → String
  | duplicateColumn name => s!"Duplicate column name `{name}`"
  | unknownKeyColumn name => s!"Key column `{name}` is not in the schema"
  | arity table row expected found =>
    s!"Row {row} of `{table}` has {found} values but the schema has {expected} columns"
  | mismatch table column row expected found =>
    s!"Column `{column}` of `{table}` expects {expected.name} but row {row} holds {found.name}"
  | nullViolation table column row =>
    s!"Column `{column}` of `{table}` is not nullable but row {row} is null"
  | ragged table => s!"Columns have different lengths in `{table}`"

/-- One column. -/
structure Column where
  name : String
  type : CellType
  nullable : Bool := true
deriving DecidableEq, Repr

/-- The columns of a table, and its keys as column positions. -/
structure Schema where
  columns : List Column
  primaryKey : List Nat := []
  uniqueKeys : List (List Nat) := []
deriving DecidableEq, Repr

/-- The first element that occurs earlier in the list. -/
def firstRepeated? [DecidableEq α] : (seen rest : List α) → Option α
  | _, [] => none
  | seen, x :: rest => if x ∈ seen then some x else firstRepeated? (x :: seen) rest

namespace Schema

/-- The column names, in order. -/
def names (schema : Schema) : List String :=
  schema.columns.map (·.name)

/-- The schema with the given columns and no keys, if their names are distinct. -/
def ofColumns (columns : List Column) : Except TableError Schema :=
  match firstRepeated? [] (columns.map (·.name)) with
  | some name => .error (.duplicateColumn name)
  | none => .ok { columns }

/-- The position of a column. -/
def position? (schema : Schema) (name : String) : Option Nat :=
  schema.columns.findIdx? (·.name = name)

/-- The column of a name. -/
def column? (schema : Schema) (name : String) : Option Column :=
  schema.columns.find? (·.name = name)

/-- The number of columns. -/
def width (schema : Schema) : Nat :=
  schema.columns.length

/-- The positions of the columns of a key. -/
def keyPositions (schema : Schema) (names : List String) : Except TableError (List Nat) :=
  names.mapM fun name =>
    match schema.position? name with
    | some position => .ok position
    | none => .error (.unknownKeyColumn name)

/-- The schema with a primary key, whose columns are not null. -/
def withPrimaryKey (schema : Schema) (names : List String) : Except TableError Schema := do
  let key ← schema.keyPositions names
  let columns := schema.columns.mapIdx fun i column =>
    if i ∈ key then { column with nullable := false } else column
  return { schema with columns, primaryKey := key }

/-- The schema with one more unique key. -/
def withUniqueKey (schema : Schema) (names : List String) : Except TableError Schema := do
  let key ← schema.keyPositions names
  return { schema with uniqueKeys := schema.uniqueKeys ++ [key] }

/-- The keys that are declared: the primary key unless it is empty, then the unique ones. -/
def keys (schema : Schema) : List (List Nat) :=
  (if schema.primaryKey.isEmpty then [] else [schema.primaryKey]) ++ schema.uniqueKeys

/-- The name of the column at a position. -/
def nameAt (schema : Schema) (position : Nat) : String :=
  (schema.columns[position]?.map (·.name)).getD ""

/-- The declared keys by their column names. -/
def keyNames (schema : Schema) : List (List String) :=
  schema.keys.map fun key => key.map schema.nameAt

/-- Do the named columns include some declared key? -/
def coversKey (schema : Schema) (names : List String) : Bool :=
  schema.keyNames.any fun key => key.all (names.contains ·)

/-- Is any key declared? -/
def hasKeys (schema : Schema) : Bool :=
  !schema.primaryKey.isEmpty || !schema.uniqueKeys.isEmpty

/-- The schema with those keys of another whose columns all have a new position. -/
def retainKeys (schema source : Schema) (moved : Nat → Option Nat) : Schema where
  columns := schema.columns
  primaryKey := (source.primaryKey.mapM moved).getD []
  uniqueKeys := source.uniqueKeys.filterMap (·.mapM moved)

/-- Do two schemas have the same names and types in the same order? -/
def sameShape (a b : Schema) : Bool :=
  a.columns.map (fun column => (column.name, column.type)) =
    b.columns.map fun column => (column.name, column.type)

/-- The written form of a column; a question mark admits null. -/
def columnText (column : Column) : String :=
  s!"{column.name}: {column.type.name}" ++ if column.nullable then "?" else ""

/-- The written form of a schema. -/
def text (schema : Schema) : String :=
  "(" ++ ", ".intercalate (schema.columns.map columnText) ++ ")"

end Schema

end TablePipeline
