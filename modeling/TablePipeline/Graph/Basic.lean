import TablePipeline.Backend
import TablePipeline.Task.Basic

/-! # Graphs of tasks

A graph grows by stages and by tasks. A task can only read outputs of tasks that are in the graph
already, of its own stage or of an earlier one; so a graph has no cycles, and the order in which
tasks were added follows the flow of data.
-/

namespace TablePipeline

/-- Why a graph cannot be built as asked. -/
inductive GraphError where
  | duplicateStage (stage : String)
  | unknownStage (stage : String)
  | duplicateTask (task : TaskId)
  | duplicateOutput (stage name : String)
  | unknownInput (task input : TaskId)
  | stageOrder (task input : TaskId)
  | missingBinding (task input : String)
  | unknownTarget (task : TaskId)
  | backend (error : RunError)
deriving DecidableEq

/-- The text of an error. -/
def GraphError.message : GraphError → String
  | duplicateStage stage => s!"Stage `{stage}` is declared twice"
  | unknownStage stage => s!"Stage `{stage}` is not declared"
  | duplicateTask task => s!"Task `{task.text}` is registered twice"
  | duplicateOutput stage name => s!"Stage `{stage}` already has an output named `{name}`"
  | unknownInput task input =>
    s!"Task `{task.text}` reads an output of `{input.text}`, which is not in this graph"
  | stageOrder task input =>
    s!"Task `{task.text}` reads an output of `{input.text}`, which belongs to a later stage"
  | missingBinding task input => s!"Query of task `{task}` reads `{input}`, which is not bound"
  | unknownTarget task => s!"Task `{task.text}` is not in this graph"
  | backend error => error.message

/-- A task in a graph. -/
structure TaskNode where
  id : TaskId
  /-- The position of its stage. -/
  stage : Nat
  task : Task
  /-- The position of the task that gives each input. -/
  producers : List Nat

/-- Stages and tasks, in the order in which they were added. -/
structure Graph where
  stages : List String := []
  nodes : List TaskNode := []

namespace Graph

instance : Inhabited Graph := ⟨{}⟩

/-- The graph without stages and tasks. -/
def empty : Graph := {}

/-- The number of tasks. -/
def size (graph : Graph) : Nat :=
  graph.nodes.length

/-- The position of a task. -/
def position? (graph : Graph) (id : TaskId) : Option Nat :=
  graph.nodes.findIdx? (·.id = id)

/-- The node of a task. -/
def node? (graph : Graph) (id : TaskId) : Option TaskNode :=
  graph.nodes.find? (·.id = id)

/-- The stage and the name of every output in the graph. -/
def outputNames (graph : Graph) : List (String × String) :=
  graph.nodes.flatMap fun node => node.task.outputs.map fun output => (node.id.stage, output.name)

/-- Adds a stage behind all others. -/
def addStage (graph : Graph) (stage : String) : Except GraphError Graph :=
  if stage ∈ graph.stages then .error (.duplicateStage stage)
  else .ok { graph with stages := graph.stages ++ [stage] }

/-- The position of the task that gives an input of a new task in a stage. -/
def producer (graph : Graph) (id : TaskId) (stage : Nat) (input : OutputRef) :
    Except GraphError Nat :=
  match graph.position? input.task, graph.node? input.task with
  | some position, some node =>
    if node.task.outputs[input.index]? ≠ some ⟨input.name, input.kind⟩ then
      .error (.unknownInput id input.task)
    else if stage < node.stage then .error (.stageOrder id input.task)
    else .ok position
  | _, _ => .error (.unknownInput id input.task)

/-- Refuses an output whose name its stage has already, in the graph or earlier in the list. -/
def requireNewOutputs (stage : String) (taken : List (String × String)) :
    List OutputSpec → Except GraphError Unit
  | [] => .ok ()
  | output :: rest =>
    if (stage, output.name) ∈ taken then .error (.duplicateOutput stage output.name)
    else requireNewOutputs stage ((stage, output.name) :: taken) rest

/-- Adds a task to a stage, behind all others. -/
def add (graph : Graph) (stage : String) (task : Task) : Except GraphError Graph := do
  let some position := graph.stages.findIdx? (· = stage) | throw (.unknownStage stage)
  let id : TaskId := ⟨stage, task.name⟩
  if (graph.position? id).isSome then throw (.duplicateTask id)
  let producers ← task.inputs.mapM (graph.producer id position)
  requireNewOutputs stage graph.outputNames task.outputs
  return { graph with nodes := graph.nodes ++ [⟨id, position, task, producers⟩] }

end Graph

end TablePipeline
