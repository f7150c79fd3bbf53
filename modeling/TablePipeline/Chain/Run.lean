import TablePipeline.Chain.Signature
import TablePipeline.Rows.Aggregate
import TablePipeline.Rows.Join
import TablePipeline.Rows.Window
import TablePipeline.Sql.Query
import TablePipeline.Table

/-! # Running a chain

A chain runs step by step over complete lists of rows. Each step is bound to the schema before it,
so names are looked up once and not in every row. `Chain.rows` gives the rows after the last step,
and `Chain.run` the table that they make under the schema of the chain.
-/

namespace TablePipeline

/-- What can go wrong with a query. -/
inductive RunError where
  | compile (error : CompileError)
  | chain (error : ChainError)
  | unsupportedQuery (backend query : String)
  | missingInput (name : String)
  | inputSchema (name : String) (expected found : Schema)
  | schemaMismatch (column expected found : String)
  | valueType (column : String) (expected : CellType) (found : String)
  | integerOverflow (column : String)
  | engine (failure : String)
  | table (error : TableError)
deriving DecidableEq

/-- The text of an error. -/
def RunError.message : RunError → String
  | compile error => error.message
  | chain error => error.message
  | unsupportedQuery backend query => s!"Backend `{backend}` cannot execute a {query} query"
  | missingInput name => s!"Input `{name}` is not bound"
  | inputSchema name expected found =>
    s!"Input `{name}` has schema {found.text}, expected {expected.text}"
  | schemaMismatch column expected found =>
    s!"Result column `{column}`: expected {expected}, found {found}"
  | valueType column expected found =>
    s!"Result column `{column}` holds a value of type {found}, expected {expected.name}"
  | integerOverflow column => s!"Integer overflow computing `{column}`"
  | engine failure => s!"Engine failure: {failure}"
  | table error => error.message

/-- The tables a query may read, by the names it uses. -/
abbrev Inputs := Dictionary String Table

namespace Inputs

/-- The table of a name. -/
def get (inputs : Inputs) (name : String) : Except RunError Table :=
  match inputs.find? name with
  | some table => .ok table
  | none => .error (.missingInput name)

/-- The table of a name, if it has the shape of a schema. -/
def source (inputs : Inputs) (name : String) (expected : Schema) : Except RunError Table := do
  let table ← get inputs name
  if table.schema.sameShape expected then return table
  throw (.inputSchema name expected table.schema)

end Inputs

namespace Schema

/-- The positions of the columns that a clause names. -/
def positions (schema : Schema) (clause : Clause) (names : List String) :
    Except RunError (List Nat) :=
  (names.mapM (schema.resolve clause)).mapError .chain

/-- Ordering keys with the positions of their columns. -/
def orderKeys (schema : Schema) (keys : List OrderKey) :
    Except RunError (List (Nat × OrderKey)) := do
  return (← schema.positions .orderBy (keys.map (·.column))).zip keys

end Schema

/-- An expression bound to a schema. -/
def bindExpr (schema : Schema) (expr : Expr String) : Except RunError (Expr Nat) :=
  (expr.bind schema).mapError .chain

/-- Assigned expressions bound to a schema. -/
def bindAssignments (schema : Schema) (assignments : List (String × Expr String)) :
    Except RunError (List (String × Expr Nat)) :=
  assignments.mapM fun (name, expr) => return (name, ← bindExpr schema expr)

/-- The columns after an assignment, each as an expression over the row before it: an assigned one
or an old column. -/
def assignedItems (before after : Schema) (bound : List (String × Expr Nat)) :
    Except RunError (List (Expr Nat)) :=
  after.names.mapM fun name =>
    match bound.lookup name with
    | some expr => return expr
    | none => return .column (← (before.resolve .mutate name).mapError .chain)

/-- An aggregate bound to a schema, with the name and the type of its column. -/
structure BoundAggregate where
  name : String
  function : AggregateFunction
  argument : Option (Expr Nat)
  type : CellType

/-- Aggregates bound to a schema. Their columns follow the keys in the schema after the step. -/
def bindAggregates (before after : Schema) (keyCount : Nat)
    (aggregates : List (String × Aggregate)) : Except RunError (List BoundAggregate) := do
  let bound ← aggregates.mapM fun (name, aggregate) => do
    let argument ← aggregate.argument.mapM (bindExpr before)
    return (name, aggregate.function, argument)
  return (bound.zip (after.columns.drop keyCount)).map
    fun ((name, function, argument), column) => ⟨name, function, argument, column.type⟩

/-- The row of one group: its key, then its aggregates. -/
def summaryRow (keys : List Nat) (aggregates : List BoundAggregate) (group : List Row) :
    Except RunError Row := do
  let values ← aggregates.mapM fun aggregate =>
    match aggregate.function.apply? aggregate.type aggregate.argument group with
    | some value => .ok value
    | none => .error (.integerOverflow aggregate.name)
  return (group.headD []).pick keys ++ values

/-- The groups that are summarised. Without keys there is one group, even if it has no rows. -/
def summaryGroups (keys : List Nat) (rows : List Row) : List (List Row) :=
  match keys, groupsOf (·.pick keys) rows with
  | [], [] => [[]]
  | _, groups => groups

namespace Verb

/-- The rows after an operation, given what is known before it and the schema after it. -/
def rows (before : Signature) (after : Schema) (rows : List Row) :
    Verb → Except RunError (List Row)
  | groupBy _ | rename _ => return rows
  | select columns => do
    let positions ← before.schema.positions .select columns
    return rows.map (·.pick positions)
  | mutate assignments => do
    let bound ← bindAssignments before.schema assignments
    let items ← assignedItems before.schema after bound
    return rows.map fun row => items.map (·.eval row)
  | filter predicate => do
    let predicate ← bindExpr before.schema predicate
    return rows.filter predicate.holds
  | summarise aggregates => do
    let keys ← before.schema.positions .summarise before.groups
    let aggregates ← bindAggregates before.schema after keys.length aggregates
    (summaryGroups keys rows).mapM (summaryRow keys aggregates)
  | orderBy keys => do
    let keys ← before.schema.orderKeys keys
    return sortRows keys id rows
  | window added => do
    let partition ← before.schema.positions .window added.partitionBy
    let keys ← before.schema.orderKeys added.orderBy
    let function ← (added.function.bind before.schema).mapError .chain
    let items ← after.names.mapM fun name =>
      if name = added.name then return none
      else return some (← (before.schema.resolve .window name).mapError .chain)
    return (rows.zip (function.column partition keys rows)).map fun (row, value) =>
      items.map fun item => (item.map row.cell).getD value

end Verb

/-- The columns of a join key. -/
def joinKeyColumns (left right : Schema) (pairs : List (String × String)) :
    Except RunError (List JoinKeyColumn) := do
  let leftKeys ← left.positions .join (pairs.map (·.1))
  let rightKeys ← right.positions .join (pairs.map (·.2))
  return (leftKeys.zip rightKeys).map fun (l, r) =>
    ⟨l, r, left.columns[l]?.map (·.type) ≠ right.columns[r]?.map (·.type)⟩

namespace Chain

/-- The rows after the last step. -/
def rows (inputs : Inputs) : Chain → Except RunError (List Row)
  | source name schema => return (← inputs.source name schema).rows
  | apply input verb => do
    verb.rows input.signature (apply input verb).schema (← input.rows inputs)
  | join input right kind pairs => do
    let leftRows ← input.rows inputs
    let rightRows ← right.rows inputs
    let columns ← joinKeyColumns input.schema right.schema pairs
    return joinRows kind columns (Schema.joinLayout input.schema right.schema pairs) leftRows
      rightRows

/-- The table that a chain gives. -/
def run (inputs : Inputs) (chain : Chain) : Except RunError Table := do
  let rows ← chain.rows inputs
  (Table.ofRows chain.signature.name chain.schema rows).mapError .table

end Chain

end TablePipeline
