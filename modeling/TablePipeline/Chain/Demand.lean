import TablePipeline.Chain.Run
import TablePipeline.Expr.Promise

/-! # Rows on demand

An engine runs the query of a chain in passes. One pass goes over the rows of a table, or over those
of the pass below it, and takes in every selection, assignment and filter up to the next step that
needs complete rows: an order, a window, a summary or a join. A value is computed only if such a
step, a filter or the result asks for it, and the whole query fails if that overflows. Two more
rules decide what is computed:

* a condition without columns is tested before any row, and if it does not hold the pass and all
  passes below it are left out;
* a condition on partition columns of a window, or on the groups of a summary, is also tested below
  that step.
-/

namespace TablePipeline

/-- The rows of a pass. -/
structure PromisedRows where
  rows : List PromisedRow
  /-- Did something that was asked for on the way overflow? -/
  fails : Bool

namespace PromisedRows

/-- Rows that are there. -/
def kept (rows : List Row) : PromisedRows :=
  ⟨rows.map (·.map .kept), false⟩

/-- No rows, because some value overflowed. -/
def failed : PromisedRows :=
  ⟨[], true⟩

/-- Do all conditions hold in a row? They are tested in turn up to one that does not; no answer
means that a test overflowed. -/
def test (row : PromisedRow) : List (Expr Nat) → Option Bool
  | [] => some true
  | condition :: rest =>
    let promise := condition.promise row
    if promise.testOverflows false then none
    else if promise.holds false then test row rest
    else some false

/-- The rows in which conditions hold. -/
def filter (conditions : List (Expr Nat)) (pass : PromisedRows) : PromisedRows :=
  let (fixed, conditions) := conditions.partition (·.references.isEmpty)
  match test [] fixed with
  | none => failed
  | some false => ⟨[], false⟩
  | some true =>
    let tested := pass.rows.map fun row => (row, test row conditions)
    { rows := tested.filterMap fun (row, holds) => if holds = some true then some row else none
      fails := pass.fails || tested.any (·.2 = none) }

/-- The complete rows after some values are computed in every row; none if that overflows. -/
def complete? (demanded : List (Expr Nat)) (pass : PromisedRows) : Option (List Row) :=
  if pass.fails || pass.rows.any fun row => demanded.any fun expr => (expr.promise row).overflows
  then none
  else some (pass.rows.map (·.map (·.cell)))

end PromisedRows

/-- The columns of a schema as expressions. -/
def Schema.references (schema : Schema) : List (Expr Nat) :=
  (List.range schema.width).map .column

namespace Verb

/-- The conditions tested below a step, of those that are tested above it. -/
def conditionsBelow (groups : List String) (above : List (Expr String)) :
    Verb → List (Expr String)
  | groupBy _ | rename _ | select _ => above
  | mutate assignments =>
    above.filter fun condition => condition.columns.all fun name => (assignments.lookup name).isNone
  | filter predicate => predicate.conjuncts ++ above
  | orderBy _ => []
  | window added =>
    if added.partitionBy.isEmpty then []
    else above.filter fun condition =>
      condition.columns.all fun name => name ≠ added.name && added.partitionBy.contains name
  | summarise _ => above.filter fun condition => condition.columns.all groups.contains

/-- The values that a step needs of every row. -/
def demanded (before : Signature) (after : Schema) : Verb → Except RunError (List (Expr Nat))
  | groupBy _ | rename _ | select _ | mutate _ | filter _ => return []
  | orderBy _ => return before.schema.references
  | window added => do
    let kept := after.names.filter (· ≠ added.name)
    let names := kept ++ added.partitionBy ++ added.orderBy.map (·.column)
    let positions ← before.schema.positions .window names
    let argument ← added.function.argument?.mapM (bindExpr before.schema)
    return positions.map .column ++ argument.toList
  | summarise aggregates => do
    let keys ← before.schema.positions .summarise before.groups
    let arguments ← (aggregates.filterMap (·.2.argument)).mapM (bindExpr before.schema)
    return keys.map .column ++ arguments

/-- The rows after a step that needs complete rows. -/
def promisedFromComplete (before : Signature) (after : Schema) (below : List (Expr String))
    (pass : PromisedRows) (verb : Verb) : Except RunError PromisedRows := do
  let conditions ← below.mapM (bindExpr before.schema)
  match (pass.filter conditions).complete? (← verb.demanded before after) with
  | none => return .failed
  | some rows =>
    match verb.rows before after rows with
    | .ok rows => return .kept rows
    | .error (.integerOverflow _) => return .failed
    | .error error => throw error

/-- The rows after a step, given the conditions tested below it. -/
def promised (before : Signature) (after : Schema) (below : List (Expr String))
    (pass : PromisedRows) : Verb → Except RunError PromisedRows
  | groupBy _ | rename _ => return pass
  | select columns => do
    let positions ← before.schema.positions .select columns
    return { pass with rows := pass.rows.map fun row => positions.map (row[·]?.getD default) }
  | mutate assignments => do
    let bound ← bindAssignments before.schema assignments
    let items ← assignedItems before.schema after bound
    return { pass with rows := pass.rows.map fun row => items.map (·.promise row) }
  | filter predicate => do
    return pass.filter (← bindExpr before.schema predicate).conjuncts
  | verb => verb.promisedFromComplete before after below pass

end Verb

/-- The rows of a join. Keys are computed first, those of the right side only if there are rows on
the left, and the other columns only for rows that belong together. -/
def promisedJoin (kind : JoinKind) (columns : List JoinKeyColumn) (layout : List JoinColumn)
    (left right : PromisedRows) : PromisedRows :=
  let cells (row : PromisedRow) : Row := row.map (·.cell)
  let demands (row : PromisedRow) (positions : List Nat) : Bool :=
    positions.any fun position => (row[position]?.getD default).overflows
  let onSide (side : Side) : List Nat := (layout.filter (·.side = side)).map (·.index)
  let pairs := joinPairs cells kind columns left.rows right.rows
  let keysOverflow := left.rows.any (demands · (columns.map (·.left))) ||
    (!left.rows.isEmpty && right.rows.any (demands · (columns.map (·.right))))
  let pairsOverflow := pairs.any fun (row, partner) =>
    demands row (onSide .left) || partner.any (demands · (onSide .right))
  if left.fails || (!left.rows.isEmpty && right.fails) || keysOverflow || pairsOverflow then .failed
  else .kept (pairs.map fun (row, partner) => (cells row).joined layout (partner.map cells))

namespace Chain

/-- The rows after the last step, given the conditions that are tested above it. -/
def promised (inputs : Inputs) (above : List (Expr String)) : Chain → Except RunError PromisedRows
  | source name schema => return .kept (← inputs.source name schema).rows
  | apply input verb => do
    let before := input.signature
    let below := verb.conditionsBelow before.groups above
    verb.promised before (apply input verb).schema below (← input.promised inputs below)
  | join input right kind pairs => do
    let leftRows ← input.promised inputs []
    let rightRows ← right.promised inputs []
    let columns ← joinKeyColumns input.schema right.schema pairs
    return promisedJoin kind columns (Schema.joinLayout input.schema right.schema pairs) leftRows
      rightRows

/-- The rows that an engine computes for the query of a chain; none if a value overflows. -/
def demandedRows? (inputs : Inputs) (chain : Chain) : Except RunError (Option (List Row)) := do
  return (← chain.promised inputs []).complete? chain.schema.references

end Chain

end TablePipeline
