import TablePipeline.Graph.Builder
import TablePipeline.Pipeline.Basic
import TablePipeline.Registry
import TablePipeline.Task.Query

/-! # Graphs of pipelines

A pipeline becomes a graph of three stages: `load` draws the tables, `transform` runs the pipeline
on every backend, and `check` compares what the backends gave.
-/

namespace TablePipeline

/-- How the tables are drawn. -/
structure PipelineInput where
  /-- The number of passengers. -/
  rows : Nat
  seed : UInt64

/-- Why a pipeline has no graph. -/
inductive BuildError where
  | config (error : ConfigError)
  | graph (error : GraphError)

/-- The text of an error. -/
def BuildError.message : BuildError → String
  | config error => error.message
  | graph error => error.message

/-- A graph, and its tasks of interest. -/
structure BuiltPipeline where
  graph : Graph
  /-- One for each backend, in order. -/
  transforms : List TaskId
  check : TaskId

namespace PipelineTable

/-- The seed of a table. Tables of one seed are drawn from different streams. -/
def seed (table : PipelineTable) (seed : UInt64) : UInt64 :=
  match table with
  | passengers => seed
  | cabins => seed + 1

/-- Draws a table from the generator of a context. -/
def loadBody (table : PipelineTable) (rows : Nat) : TaskBody := fun context => do
  let generator ← context.generator
  match (table.draw rows).run generator |>.1 with
  | .ok drawn => return [.table drawn]
  | .error error => throw (.failed error.message)

/-- The task that draws a table. -/
def loadTask (table : PipelineTable) (input : PipelineInput) : Task :=
  let task : Task :=
    { name := table.name
      version := "1"
      body := table.loadBody input.rows
      seed := some (table.seed input.seed) }
  task.setParam "rows" (toString input.rows)

end PipelineTable

namespace Pipeline

/-- What a backend is asked. -/
def query (pipeline : Pipeline) : BackendKind → Query
  | .raw => .raw pipeline.rawQuery
  | .eager | .compiled => .chain pipeline.chain

/-- The stages of the graph of a pipeline. -/
def stages : List String := ["load", "transform", "check"]

/-- Registers a task. Gives its identity, and its first output under a name. -/
def addBound (stage name : String) (task : Task) : Registration (TaskId × List Binding) := do
  let handle ← GraphBuilder.add stage task
  return (handle.id, handle.outputs.head?.toList.map fun output => ⟨name, output⟩)

/-- Registers the tasks of a pipeline on some backends. Gives the transforms and the comparison. -/
def register (pipeline : Pipeline) (input : PipelineInput) (tolerance : Float)
    (backends : List Backend) : Registration (List TaskId × TaskId) := do
  stages.forM GraphBuilder.stage
  let loads ← pipeline.reads.mapM fun table => addBound "load" table.name (table.loadTask input)
  let tables := loads.flatMap (·.2)
  let transforms ← backends.mapM fun backend => do
    let query := pipeline.query backend.kind
    let task ← MonadExcept.ofExcept (transformTask backend.name "1" backend query tables)
    addBound "transform" backend.name task
  let outputs := transforms.flatMap (·.2)
  let check ← GraphBuilder.add "check"
    (equivalenceTask pipeline.name "1" pipeline.reduction tolerance outputs)
  return (transforms.map (·.1), check.id)

/-- The graph of a pipeline on some backends. -/
def graph (pipeline : Pipeline) (input : PipelineInput) (tolerance : Float)
    (backends : List Backend) : Except GraphError BuiltPipeline :=
  match (pipeline.register input tolerance backends).run {} with
  | .ok (transforms, check) builder => .ok ⟨builder.build, transforms, check⟩
  | .error error _ => .error error

/-- The graph of a pipeline on the backends that settings choose. -/
def build (pipeline : Pipeline) (input : PipelineInput) (config : RunConfig)
    (registry : Registry) : Except BuildError BuiltPipeline := do
  let backends ← (registry.select config).mapError .config
  (pipeline.graph input config.tolerance backends).mapError .graph

end Pipeline

end TablePipeline
