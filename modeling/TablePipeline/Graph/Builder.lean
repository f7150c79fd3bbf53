import TablePipeline.Graph.Basic

/-! # Registering stages and tasks

A graph is made by a builder, which stages and tasks are registered with one at a time. Beside them
the builder keeps two books, one of the place of every task and one of the names of all outputs, so
that a new task is checked without a look at all older ones. A call changes the builder in place,
and the builder stays in use after a call that was refused.
-/

namespace TablePipeline

/-- What a task is known by once it is registered: its identity, and references to its outputs. -/
structure TaskHandle where
  id : TaskId
  outputs : List OutputRef
deriving DecidableEq, Repr

/-- Stages and tasks in the order in which they were registered, and the books about them. -/
structure GraphBuilder where
  stages : List String := []
  nodes : List TaskNode := []
  /-- The position of every task. -/
  index : Dictionary TaskId Nat := {}
  /-- The stage and the name of every output. -/
  outputs : List (String × String) := []

/-- A call of the builder. What it has changed stays changed where it is refused later. -/
abbrev Registration := EStateM GraphError GraphBuilder

namespace GraphBuilder

/-- The graph of what was registered. -/
def build (builder : GraphBuilder) : Graph :=
  ⟨builder.stages, builder.nodes⟩

/-- Declares the next stage. -/
def stage (name : String) : Registration Unit := do
  if name ∈ (← get).stages then throw (.duplicateStage name)
  modify fun builder => { builder with stages := builder.stages ++ [name] }

/-- The position of the task that gives an input of a new task in a stage. -/
def producer (builder : GraphBuilder) (id : TaskId) (stage : Nat) (input : OutputRef) :
    Except GraphError Nat := do
  let some position := builder.index.find? input.task | throw (.unknownInput id input.task)
  -- The index leads to a task, so this lookup does not miss.
  let some node := builder.nodes[position]? | throw (.unknownInput id input.task)
  if node.task.outputs[input.index]? ≠ some ⟨input.name, input.kind⟩ then
    throw (.unknownInput id input.task)
  if node.stage > stage then throw (.stageOrder id input.task)
  return position

/-- The names that the outputs of a new task take, behind those it has claimed already. -/
def claim (builder : GraphBuilder) (stage : String) (claimed : List (String × String)) :
    List OutputSpec → Except GraphError (List (String × String))
  | [] => .ok claimed
  | output :: rest =>
    let key := (stage, output.name)
    if builder.outputs.contains key || claimed.contains key then
      .error (.duplicateOutput stage output.name)
    else builder.claim stage (claimed ++ [key]) rest

/-- Registers a task in a stage. -/
def add (stage : String) (task : Task) : Registration TaskHandle := do
  let builder ← get
  let some position := builder.stages.findIdx? (· = stage) | throw (.unknownStage stage)
  let id : TaskId := ⟨stage, task.name⟩
  if builder.index.contains id then throw (.duplicateTask id)
  let producers ← MonadExcept.ofExcept (task.inputs.mapM (builder.producer id position))
  let claimed ← MonadExcept.ofExcept (builder.claim stage [] task.outputs)
  modify fun builder => { builder with outputs := builder.outputs ++ claimed }
  modify fun builder => { builder with index := builder.index.insert id builder.nodes.length }
  modify fun builder =>
    { builder with nodes := builder.nodes ++ [⟨id, position, task, producers⟩] }
  return ⟨id, task.refs stage⟩

end GraphBuilder

/-- What a builder is asked. -/
inductive BuilderCall where
  | stage (name : String)
  | add (stage : String) (task : Task)

/-- What a call gives. Only a task has a handle. -/
abbrev BuilderAnswer := Except GraphError (Option TaskHandle)

namespace BuilderCall

/-- Makes a call. -/
def make (call : BuilderCall) (builder : GraphBuilder) : BuilderAnswer × GraphBuilder :=
  let called : Registration (Option TaskHandle) :=
    match call with
    | .stage name => do
      GraphBuilder.stage name
      return none
    | .add name task => return some (← GraphBuilder.add name task)
  match called.run builder with
  | .ok handle next => (.ok handle, next)
  | .error error next => (.error error, next)

/-- Makes calls one after the other, whether or not one is refused. -/
def makeAll : List BuilderCall → GraphBuilder → List BuilderAnswer × GraphBuilder
  | [], builder => ([], builder)
  | call :: rest, builder =>
    let (answer, next) := call.make builder
    let (answers, last) := makeAll rest next
    (answer :: answers, last)

end BuilderCall

end TablePipeline
