import TablePipeline.Graph.Basic

/-! # Tasks that run queries

A transform runs a query on a backend. An equivalence task compares the outputs of several backends
and gives the metrics of the first one as a table.
-/

namespace TablePipeline

/-- An output under the name that a query or a comparison knows it by. -/
structure Binding where
  name : String
  output : OutputRef
deriving DecidableEq, Repr

/-- The reason of a failed query, with what caused it. -/
def RunError.reason : RunError → String
  | engine failure => s!"Engine failure: {failure}: {failure}: Error code 1: SQL logic error"
  | error => error.message

/-- The inputs of a query: the tables of a context under the bound names. -/
def bindInputs (context : TaskContext) (names : List String) : Except TaskError Inputs :=
  names.zipIdx.foldlM (fun inputs (name, index) => do
    return inputs.insertNamed name (← context.table index)) {}

/-- Runs a query on the tables of a context. -/
def transformBody (backend : Backend) (query : Query) (names : List String) : TaskBody :=
  fun context => do
    let inputs ← bindInputs context names
    let table ← (backend.execute query inputs).mapError fun error => .failed error.reason
    return [.table table]

/-- A task that runs a query. Every table that the query reads must be bound. What the backend does
for the query is a parameter of the task, and so part of its fingerprint. -/
def transformTask (name version : String) (backend : Backend) (query : Query)
    (bindings : List Binding) : Except GraphError Task := do
  let names := bindings.map (·.name)
  match query.inputs.find? (· ∉ names) with
  | some missing => throw (.missingBinding name missing)
  | none =>
    let description ← (backend.describe query).mapError .backend
    let task : Task :=
      { name, version
        body := transformBody backend query names
        inputs := bindings.map (·.output) }
    return (task.setParam "backend" backend.name).setParam "query" description

/-- The schema of metrics. -/
def metricSchema : Schema where
  columns := [⟨"metric", .text, false⟩, ⟨"value", .text, true⟩]

/-- Compares the tables of a context, and gives the metrics of the first one. -/
def equivalenceBody (reduction : Reduction) (tolerance : Float) (backends : List String) :
    TaskBody :=
  fun context => do
    let tables ← context.tables
    let outputs := (backends.zip tables).map fun (backend, table) => ⟨backend, table⟩
    let metrics ← (validate reduction tolerance outputs).mapError .validation
    let rows := metrics.map fun (metric, value) => [Cell.text metric.text, Cell.text value.display]
    let table ← (Table.ofRows context.id.name metricSchema rows).mapError fun error =>
      .failed error.message
    return [.table table]

/-- A task that compares outputs; the first one is the reference. -/
def equivalenceTask (name version : String) (reduction : Reduction) (tolerance : Float)
    (outputs : List Binding) : Task :=
  let backends := outputs.map (·.name)
  let task : Task :=
    { name, version
      body := equivalenceBody reduction tolerance backends
      inputs := outputs.map (·.output) }
  ((task.setParam "backends" (",".intercalate backends)).setParam "reduction"
    reduction.text).setParam "tolerance" (Number.text .plain tolerance)

end TablePipeline
