import TablePipeline.Chain.Basic
import TablePipeline.Expr.Typing

/-! # What is known after a step

The signature of a chain holds the schema of its rows, the active grouping columns, the name of the
table and the sources that are read. Each step is checked against the signature before it; the first
fault found is the error.
-/

namespace TablePipeline

/-- What is known about the rows after a step. -/
structure Signature where
  schema : Schema
  groups : List String := []
  name : String
  /-- The sources read so far, by name and in the order of their names. -/
  sources : Dictionary String Schema
deriving DecidableEq, Repr

/-- The schema of some columns. A fault of the schema is reported as a repeated column. -/
def schemaOf (columns : List Column) : Except ChainError Schema :=
  match Schema.ofColumns columns with
  | .ok schema => .ok schema
  | .error (.duplicateColumn name) => .error (.duplicateColumn name)
  | .error error => .error (.duplicateColumn error.message)

/-- Refuses names that repeat. -/
def requireDistinct (names : List String) : Except ChainError Unit :=
  match firstRepeated? [] names with
  | some name => .error (.duplicateColumn name)
  | none => .ok ()

namespace Schema

/-- The schema after columns are assigned: a column of an old name takes its place, and the others
follow at the end. Keys over a replaced column are dropped. -/
def assign (schema : Schema) (columns : List Column) : Except ChainError Schema := do
  let replaced := schema.columns.map fun old =>
    (columns.find? (·.name = old.name)).getD old
  let added := columns.filter fun column => (schema.position? column.name).isNone
  let result ← schemaOf (replaced ++ added)
  let names := columns.map (·.name)
  return result.retainKeys schema fun position =>
    if schema.nameAt position ∈ names then none else some position

/-- The schema of the named columns. -/
def select (schema : Schema) (names : List String) : Except ChainError Schema := do
  let columns ← names.mapM (schema.resolveColumn .select)
  let result ← schemaOf columns
  return result.retainKeys schema fun position => names.findIdx? (· = schema.nameAt position)

/-- The columns of a join, in order. The left columns come first, then the right ones. A right key
column that is paired with a left one of its name is left out; in any other clash of names the left
column is. -/
def joinLayout (left right : Schema) (pairs : List (String × String)) : List JoinColumn :=
  let shared := pairs.filterMap fun (l, r) => if l = r then right.position? r else none
  let rightColumns := (List.range right.width).filter (· ∉ shared)
  let rightNames := rightColumns.map right.nameAt
  let leftColumns := (List.range left.width).filter fun i => left.nameAt i ∉ rightNames
  leftColumns.map (⟨.left, ·⟩) ++ rightColumns.map (⟨.right, ·⟩)

/-- The column of a join at an entry of its layout. -/
def joinColumn? (left right : Schema) (kind : JoinKind) (entry : JoinColumn) : Option Column :=
  match entry.side with
  | .left => left.columns[entry.index]?
  | .right => right.columns[entry.index]?.map fun column =>
    { column with nullable := column.nullable || kind = .left }

/-- Checks that the paired columns exist and can be compared. -/
def checkPairs (left right : Schema) : List (String × String) → Except ChainError Unit
  | [] => .ok ()
  | (l, r) :: rest => do
    let leftColumn ← left.resolveColumn .join l
    let rightColumn ← right.resolveColumn .join r
    if leftColumn.type = rightColumn.type ∨
        (leftColumn.type.widest? rightColumn.type).isSome then
      checkPairs left right rest
    else
      throw (.invalidJoin (.keyType l leftColumn.type r rightColumn.type))

/-- The schema of a join. If either side declares keys, the pairs must cover a key of one side. When
they cover one of the right side, each left row has at most one partner and the left keys stay. -/
def join (left right : Schema) (kind : JoinKind) (pairs : List (String × String)) :
    Except ChainError Schema := do
  if pairs.isEmpty then throw (.invalidJoin .emptyPredicate)
  checkPairs left right pairs
  let rightUnique := right.coversKey (pairs.map (·.2))
  if (left.hasKeys || right.hasKeys) && !rightUnique && !left.coversKey (pairs.map (·.1)) then
    throw (.invalidJoin (.notKeyEquivalent pairs))
  let layout := joinLayout left right pairs
  let result ← schemaOf (layout.filterMap (joinColumn? left right kind))
  if rightUnique then
    let kept := (layout.filter (·.side = .left)).map (·.index)
    return result.retainKeys left fun position => kept.findIdx? (· = position)
  return result

end Schema

namespace Signature

/-- The signature of a source. -/
def ofSource (name : String) (schema : Schema) : Signature where
  schema := schema
  name := name
  sources := ⟨[(name, schema)]⟩

/-- May the operation follow while grouping columns are active? -/
def Verb.followsGroups : Verb → Bool
  | .summarise _ | .rename _ | .groupBy _ => true
  | _ => false

/-- The columns of assigned expressions. -/
def assignedColumns (schema : Schema) (assignments : List (String × Expr String)) :
    Except ChainError (List Column) :=
  assignments.mapM fun (name, expr) => do
    return (← expr.infer schema .mutate).column name

/-- The schema after rows are summarised by the active groups, which become a key. -/
def summarise (signature : Signature) (aggregates : List (String × Aggregate)) :
    Except ChainError Schema := do
  requireDistinct (signature.groups ++ aggregates.map (·.1))
  let keys ← signature.groups.mapM (signature.schema.resolveColumn .summarise)
  let values ← aggregates.mapM fun (name, aggregate) => do
    return (← aggregate.infer signature.schema).column name
  let schema ← schemaOf (keys ++ values)
  if signature.groups.isEmpty then return schema
  (schema.withUniqueKey signature.groups).mapError fun
    | .unknownKeyColumn name | .duplicateColumn name => .duplicateColumn name
    | error => .duplicateColumn error.message

/-- The signature after an operation. -/
def apply (signature : Signature) (verb : Verb) : Except ChainError Signature := do
  if !signature.groups.isEmpty && !Verb.followsGroups verb then throw (.notAggregate verb.name)
  let schema := signature.schema
  match verb with
  | .select columns =>
    if columns.isEmpty then throw .emptySelect
    requireDistinct columns
    return { signature with schema := ← schema.select columns, groups := [] }
  | .mutate assignments =>
    requireDistinct (assignments.map (·.1))
    let columns ← assignedColumns schema assignments
    return { signature with schema := ← schema.assign columns, groups := [] }
  | .filter predicate =>
    let value ← predicate.infer schema .filter
    let _ ← value.expect predicate.text .bool
    return { signature with groups := [] }
  | .groupBy columns =>
    requireDistinct columns
    let _ ← columns.mapM (schema.resolve .groupBy)
    return { signature with groups := columns }
  | .summarise aggregates =>
    return { signature with schema := ← signature.summarise aggregates, groups := [] }
  | .orderBy keys =>
    if keys.isEmpty then throw .emptyOrder
    let _ ← keys.mapM fun key => schema.resolve .orderBy key.column
    return { signature with groups := [] }
  | .window window =>
    if window.orderBy.isEmpty then throw (.unorderedWindow window.function.name)
    let _ ← window.partitionBy.mapM (schema.resolve .window)
    let _ ← window.orderBy.mapM fun key => schema.resolve .window key.column
    let value ← window.function.infer schema
    return { signature with schema := ← schema.assign [value.column window.name], groups := [] }
  | .rename name => return { signature with name }

/-- The sources of both sides, which must agree where they share a name. -/
def mergeSources (sources : Dictionary String Schema) :
    List (String × Schema) → Except ChainError (Dictionary String Schema)
  | [] => .ok sources
  | (name, schema) :: rest =>
    match sources.find? name with
    | some known =>
      if known = schema then mergeSources sources rest else .error (.conflictingSource name)
    | none => mergeSources (sources.insertNamed name schema) rest

/-- The signature after a join. -/
def join (left right : Signature) (kind : JoinKind) (pairs : List (String × String)) :
    Except ChainError Signature := do
  if !left.groups.isEmpty then throw (.notAggregate kind.name)
  let schema ← left.schema.join right.schema kind pairs
  let sources ← mergeSources left.sources right.sources.entries
  return { schema, groups := [], name := left.name, sources }

end Signature

namespace Chain

/-- What is known after the last step, or what is wrong with the chain. -/
def signature? : Chain → Except ChainError Signature
  | source name schema => .ok (.ofSource name schema)
  | apply input verb => do (← input.signature?).apply verb
  | join input right kind pairs => do (← input.signature?).join (← right.signature?) kind pairs

/-- The signature of a chain that was built; an empty one for any other. -/
def signature (chain : Chain) : Signature :=
  match chain.signature? with
  | .ok signature => signature
  | .error _ => ⟨⟨[], [], []⟩, [], "", {}⟩

/-- The schema of the rows after the last step. -/
def schema (chain : Chain) : Schema :=
  chain.signature.schema

/-- The chain itself, if it can be built. -/
def checked (chain : Chain) : Except ChainError Chain := do
  let _ ← chain.signature?
  return chain

/-- Extends a chain by a step. -/
def extend (chain : Chain) (step : Step) : Except ChainError Chain :=
  match step with
  | .source _ => do
    if !(← chain.signature?).groups.isEmpty then throw (.notAggregate "source")
    throw .misplacedSource
  | .verb verb => (apply chain verb).checked
  | .join kind right pairs => (join chain right kind pairs).checked

/-- Assigns columns and keeps no others. -/
def transmute (chain : Chain) (assignments : List (String × Expr String)) :
    Except ChainError Chain := do
  let assigned ← chain.extend (.verb (.mutate assignments))
  assigned.extend (.verb (.select (assignments.map (·.1))))

end Chain

end TablePipeline
