import TablePipeline.Chain.Pushdown
import TablePipeline.Sql.Dialect

/-! # Compiled queries

A chain becomes a single query in which every step is a subquery over the one before it. The order
of rows is kept in a hidden column `positionColumn` that travels with every relation: sources carry
the position of each row, joins, orders and summaries compute it anew, and orders inside windows end
with it. The outermost query drops the column and orders by it.

Literals do not stand in the text. They are bound to parameters in the order in which they are met.
-/

namespace TablePipeline

/-- The name of the hidden column that holds the position of a row. -/
def positionColumn : String := "__ord"

/-- What keeps a chain from being compiled. -/
inductive CompileError where
  | unsupported (dialect : Dialect) (function : String)
  | reservedColumn (name : String)
  | chain (error : ChainError)
deriving DecidableEq

/-- The text of an error. -/
def CompileError.message : CompileError → String
  | unsupported dialect function => s!"The {dialect.name} dialect does not support `{function}`"
  | reservedColumn name => s!"Column name `{name}` is reserved"
  | chain error => error.message

/-- What becomes of the literals of a chain. -/
inductive LiteralStyle where
  /-- They are bound to parameters. -/
  | bound
  /-- They stand in place. -/
  | inPlace
deriving DecidableEq

/-- What has been used up while a query is written. -/
structure SqlDraft where
  parameters : List Cell := []
  aliases : Nat := 0

/-- A part of a query that is being written. -/
abbrev Drafting := StateT SqlDraft (Except CompileError)

namespace Drafting

/-- A name for a subquery that no other one has. -/
def newAlias : Drafting Sql := do
  let draft ← get
  set { draft with aliases := draft.aliases + 1 }
  return .words s!"t{draft.aliases + 1}"

/-- A literal that is not null. -/
def literal (style : LiteralStyle) (cell : Cell) : Drafting Sql :=
  match style with
  | .inPlace => return [.value cell]
  | .bound => do
    let draft ← get
    set { draft with parameters := draft.parameters ++ [cell] }
    return [.parameter (draft.parameters.length + 1)]

/-- The type of an operand of a cast. -/
def typeOf (schema : Schema) (operand : Expr String) : Drafting CellType :=
  match operand.infer schema .cast with
  | .ok value => return value.type
  | .error error => throw (.chain error)

end Drafting

namespace Expr

mutual

/-- An expression over the columns of a schema. -/
def draft (dialect : Dialect) (style : LiteralStyle) (schema : Schema) :
    Expr String → Drafting Sql
  | column name => return .name name
  | literal .null => return .words "NULL"
  | literal value => Drafting.literal style value
  | cast operand type =>
    if operand.isNullLiteral then return .cast (.words "NULL") (dialect.typeName type)
    else do
      let source ← Drafting.typeOf schema operand
      return .convert dialect (← operand.draft dialect style schema) source type
  | binary op left right => do
    let left ← left.draft dialect style schema
    let right ← right.draft dialect style schema
    return .binary dialect op left right
  | unary op operand => return .unary op (← operand.draft dialect style schema)
  | call function arguments => do
    match Sql.scalar? dialect function (← draftAll dialect style schema arguments) with
    | some sql => return sql
    | none => throw (.unsupported dialect function.name)

/-- Arguments over the columns of a schema. -/
def draftAll (dialect : Dialect) (style : LiteralStyle) (schema : Schema) :
    List (Expr String) → Drafting (List Sql)
  | [] => return []
  | argument :: rest => do
    let first ← argument.draft dialect style schema
    return first :: (← draftAll dialect style schema rest)

end

end Expr

/-- An aggregate over the rows of a group. -/
def Aggregate.draft (dialect : Dialect) (style : LiteralStyle) (schema : Schema)
    (aggregate : Aggregate) : Drafting Sql := do
  match aggregate.argument with
  | none => return .aggregate dialect aggregate.function none
  | some argument =>
    return .aggregate dialect aggregate.function (some (← argument.draft dialect style schema))

/-- A window function. -/
def WindowFunction.draft (dialect : Dialect) (style : LiteralStyle) (schema : Schema) :
    WindowFunction → Drafting Sql
  | rowNumber => return .words "ROW_NUMBER()"
  | rank => return .words "RANK()"
  | lead argument offset =>
    return .call "LEAD" [← argument.draft dialect style schema, .words (toString offset.toNat)]
  | lag argument offset =>
    return .call "LAG" [← argument.draft dialect style schema, .words (toString offset.toNat)]

namespace Sql

/-- The position of a row. -/
def position : Sql := name positionColumn

/-- A query of items from a subquery. -/
def selectFrom (items inner label : Sql) : Sql :=
  words "SELECT " ++ items ++ words " FROM (" ++ inner ++ words ") AS " ++ label

/-- An item under a name. -/
def named (item : Sql) (column : String) : Sql :=
  item ++ words " AS " ++ name column

/-- The rows a window function sees, and their order. All functions but those that keep ties end it
with the position. -/
def windowClause (window : Window) : Sql :=
  let partition :=
    if window.partitionBy.isEmpty then []
    else words "PARTITION BY " ++ names window.partitionBy ++ words " "
  let ties := if window.function.keepsTies then [] else [position]
  words " OVER (" ++ partition ++ words "ORDER BY " ++
    separated ", " (window.orderBy.map orderTerm ++ ties) ++ words ")"

/-- The items of a join, each from its side. -/
def joinItems (left right : Schema) (layout : List JoinColumn) (columns : List String)
    (leftAlias rightAlias : Sql) : List Sql :=
  (layout.zip columns).map fun (entry, column) =>
    let source := match entry.side with
      | .left => leftAlias ++ words "." ++ name (left.nameAt entry.index)
      | .right => rightAlias ++ words "." ++ name (right.nameAt entry.index)
    source.named column

/-- The condition of a join. -/
def joinCondition (pairs : List (String × String)) (leftAlias rightAlias : Sql) : Sql :=
  separated " AND " (pairs.map fun (left, right) =>
    leftAlias ++ words "." ++ name left ++ words " = " ++ rightAlias ++ words "." ++ name right)

/-- The words of a join. -/
def joinWords : JoinKind → String
  | .inner => " INNER JOIN ("
  | .left => " LEFT JOIN ("

end Sql

/-- The query of an operation over the query of the rows before it. -/
def Verb.draft (dialect : Dialect) (style : LiteralStyle) (before : Signature)
    (columns : List String) (inner : Sql) : Verb → Drafting Sql
  | groupBy _ | rename _ => return inner
  | select _ =>
    return .selectFrom (.names (columns ++ [positionColumn])) inner (← Drafting.newAlias)
  | mutate assignments => do
    let items ← columns.mapM fun column =>
      match assignments.lookup column with
      | some expr => return (← expr.draft dialect style before.schema).named column
      | none => return .name column
    return .selectFrom (.separated ", " items ++ .words ", " ++ .position) inner
      (← Drafting.newAlias)
  | filter predicate => do
    let condition ← predicate.draft dialect style before.schema
    return .selectFrom (.words "*") inner (← Drafting.newAlias) ++ .words " WHERE " ++ condition
  | summarise aggregates => do
    let values ← aggregates.mapM fun (column, aggregate) =>
      return (← aggregate.draft dialect style before.schema).named column
    let keys := before.groups.map Sql.name
    let items := Sql.separated ", " (keys ++ values) ++ .words ", "
    let label ← Drafting.newAlias
    if keys.isEmpty then
      return .selectFrom (items ++ (Sql.words "0").named positionColumn) inner label
    else
      return .selectFrom (items ++ (Sql.call "MIN" [.position]).named positionColumn) inner label ++
        .words " GROUP BY " ++ .separated ", " keys
  | orderBy keys => do
    let terms := Sql.separated ", " (keys.map Sql.orderTerm ++ [.position])
    let number := Sql.words "ROW_NUMBER() OVER (ORDER BY " ++ terms ++ .words ")"
    return .selectFrom (.names columns ++ .words ", " ++ number.named positionColumn) inner
      (← Drafting.newAlias)
  | window added => do
    let value ← added.function.draft dialect style before.schema
    let items := columns.map fun column =>
      if column = added.name then (value ++ Sql.windowClause added).named column else .name column
    return .selectFrom (.separated ", " items ++ .words ", " ++ .position) inner
      (← Drafting.newAlias)

/-- Refuses the name of the hidden column. -/
def Schema.requireUnreserved (schema : Schema) : Drafting Unit :=
  if (schema.position? positionColumn).isSome then throw (.reservedColumn positionColumn)
  else return ()

namespace Chain

/-- The query of the rows of a chain, with their positions. -/
def draft (dialect : Dialect) (style : LiteralStyle) : Chain → Drafting Sql
  | source name schema => do
    schema.requireUnreserved
    return .words "SELECT " ++ .names (schema.names ++ [positionColumn]) ++ .words " FROM " ++
      .name name
  | apply input verb => do
    let after := (apply input verb).schema
    after.requireUnreserved
    let inner ← input.draft dialect style
    verb.draft dialect style input.signature after.names inner
  | join input right kind pairs => do
    let before := input.schema
    let joined := right.schema
    let after := (join input right kind pairs).schema
    after.requireUnreserved
    let leftRows ← input.draft dialect style
    let rightRows ← right.draft dialect style
    let leftAlias ← Drafting.newAlias
    let rightAlias ← Drafting.newAlias
    let items := Sql.joinItems before joined (Schema.joinLayout before joined pairs) after.names
      leftAlias rightAlias
    let positions := Sql.separated ", "
      [leftAlias ++ .words "." ++ .position, rightAlias ++ .words "." ++ .position]
    let number := Sql.words "ROW_NUMBER() OVER (ORDER BY " ++ positions ++ .words ")"
    return .selectFrom (.separated ", " items ++ .words ", " ++ number.named positionColumn)
        leftRows leftAlias ++
      .words (Sql.joinWords kind) ++ rightRows ++ .words ") AS " ++ rightAlias ++ .words " ON " ++
      Sql.joinCondition pairs leftAlias rightAlias

/-- The query of the columns of a plan alone, in the order of the positions. -/
def draftAll (dialect : Dialect) (style : LiteralStyle) (columns : List String) (plan : Chain) :
    Drafting Sql := do
  let inner ← plan.draft dialect style
  let label ← Drafting.newAlias
  return .selectFrom (.names columns) inner label ++ .words " ORDER BY " ++ label ++ .words "." ++
    .position

end Chain

/-- A query, the values of its parameters, and the schema of its result. -/
structure CompiledQuery where
  /-- The name of the table it gives. -/
  name : String
  dialect : Dialect
  sql : Sql
  /-- The values of the parameters, the first for number one. -/
  parameters : List Cell
  schema : Schema
  /-- The names of the tables it reads, each with one more column for the position. -/
  sources : List String

namespace CompiledQuery

/-- The written query, and one line for each parameter. -/
def text (query : CompiledQuery) : String :=
  let notes := query.parameters.zipIdx.map fun (cell, index) =>
    s!"\n-- {index + 1} = {cell.noted}"
  query.sql.text query.dialect ++ String.join notes

end CompiledQuery

namespace Chain

/-- The chain with its filters moved, as it is compiled. -/
def plan (chain : Chain) : Except CompileError Chain :=
  chain.optimize.mapError .chain

/-- The query of a chain, and what was used up to write it. -/
def write (dialect : Dialect) (style : LiteralStyle) (chain : Chain) :
    Except CompileError (Sql × SqlDraft) := do
  let plan ← chain.plan
  (plan.draftAll dialect style chain.schema.names).run {}

/-- The query of a chain with its literals in place. -/
def inlined (dialect : Dialect) (chain : Chain) : Except CompileError Sql := do
  return (← chain.write dialect .inPlace).1

/-- Compiles a chain for a dialect. -/
def compile (dialect : Dialect) (chain : Chain) : Except CompileError CompiledQuery := do
  let (sql, draft) ← chain.write dialect .bound
  let signature := chain.signature
  return {
    name := signature.name
    dialect
    sql
    parameters := draft.parameters
    schema := signature.schema
    sources := signature.sources.keys }

end Chain

end TablePipeline
