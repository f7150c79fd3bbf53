import TablePipeline.Graph.Reach
import TablePipeline.Run.Report

/-! # The coordinator of a run

The coordinator holds the report of every task and hands out those that are ready: all their
producers succeeded, and no stage that their stage reads from has an unfinished task. A task whose
producer did not succeed is aborted, and so are the tasks of a stopped stage. Tasks are visited in
the order of the graph, which follows data but not stages, so an abort late in a pass can free a
task before it; passes are repeated until one changes nothing. After that the coordinator waits for
one task to come back.

What it waits for may come back in any order. `Coordinator.settle` and `Coordinator.complete` are
the two moves; a run is any sequence of them that ends with no task handed out.
-/

namespace TablePipeline

/-- What a run is to do. -/
structure RunPlan where
  graph : Graph
  /-- How each task takes part, if it does. -/
  modes : List (Option Mode)
  stopStageOnFailure : Bool := false
  /-- The namespace of each stage. -/
  namespaceOf : String → String

/-- A task that was handed out, with the inputs that it was given. -/
structure StartedTask where
  position : Nat
  mode : Mode
  inputs : List StoredOutput

/-- What the coordinator knows. -/
structure Coordinator where
  /-- The report of each task that takes part. -/
  reports : List (Option TaskReport)
  /-- The number of tasks of each stage that are not in a last state. -/
  unfinished : List Nat
  /-- The tasks that are handed out, the oldest first. -/
  running : List StartedTask := []
  /-- The stages of which no more tasks are started. -/
  stopped : List Nat := []

namespace RunPlan

/-- The mode of a task that takes part. -/
def mode? (plan : RunPlan) (position : Nat) : Option Mode :=
  plan.modes[position]?.join

/-- The report that a task starts with, if it takes part. -/
def initialReport (plan : RunPlan) (position : Nat) (node : TaskNode) : Option TaskReport :=
  (plan.mode? position).map fun _ => { id := node.id }

/-- The coordinator before anything is handed out. -/
def start (plan : RunPlan) : Coordinator where
  reports := plan.graph.nodes.mapIdx plan.initialReport
  unfinished := (List.range plan.graph.stages.length).map fun stage =>
    (plan.graph.nodes.zipIdx.filter fun (node, position) =>
      (plan.mode? position).isSome && node.stage = stage).length

/-- The job of a task that was handed out. -/
def job (plan : RunPlan) (node : TaskNode) (started : StartedTask) : Job where
  id := node.id
  namespaceName := plan.namespaceOf node.id.stage
  task := node.task
  inputs := started.inputs

end RunPlan

namespace Coordinator

/-- The report of a task that takes part. -/
def report? (coordinator : Coordinator) (position : Nat) : Option TaskReport :=
  coordinator.reports[position]?.join

/-- The state of a task that takes part. -/
def state? (coordinator : Coordinator) (position : Nat) : Option TaskState :=
  (coordinator.report? position).map (·.state)

/-- The coordinator with the report of a task changed. -/
def modifyReport (coordinator : Coordinator) (position : Nat) (change : TaskReport → TaskReport) :
    Coordinator :=
  { coordinator with reports := coordinator.reports.modify position (·.map change) }

/-- The coordinator with one task less to finish in a stage. -/
def finishOne (coordinator : Coordinator) (stage : Nat) : Coordinator :=
  { coordinator with unfinished := coordinator.unfinished.modify stage (· - 1) }

/-- The first producer that ended without success. -/
def blocker? (coordinator : Coordinator) (producers : List Nat) : Option Nat :=
  producers.find? fun producer =>
    match coordinator.state? producer with
    | some state => state.isTerminal && !state.isSuccess
    | none => false

/-- Did all producers succeed? -/
def hasInputs (coordinator : Coordinator) (producers : List Nat) : Bool :=
  producers.all fun producer =>
    match coordinator.state? producer with
    | some state => state.isSuccess
    | none => false

/-- Have all tasks of some stages ended? -/
def stagesFinished (coordinator : Coordinator) (stages : List Nat) : Bool :=
  stages.all fun stage => coordinator.unfinished[stage]?.getD 0 = 0

/-- The outputs that a task reads, as its producers report them. -/
def inputsOf (coordinator : Coordinator) (node : TaskNode) : List StoredOutput :=
  (node.task.inputs.zip node.producers).filterMap fun (input, producer) => do
    (← coordinator.report? producer).outputs[input.index]?

/-- What becomes of a pending task. -/
inductive Verdict where
  | abort (error : TaskError)
  | start
  | wait

/-- What becomes of a pending task now. A producer that failed comes before a stopped stage. -/
def verdict (coordinator : Coordinator) (plan : RunPlan) (node : TaskNode) : Verdict :=
  match coordinator.blocker? node.producers with
  | some producer => .abort (.aborted ((plan.graph.nodes[producer]?.map (·.id)).getD node.id))
  | none =>
    if node.stage ∈ coordinator.stopped then .abort (.stageStopped node.id.stage)
    else if coordinator.hasInputs node.producers &&
        coordinator.stagesFinished (plan.graph.stageDeps node.stage) then .start
    else .wait

/-- Visits a task, and tells whether anything changed. -/
def visit (plan : RunPlan) (coordinator : Coordinator) (position : Nat) : Coordinator × Bool :=
  match plan.mode? position, plan.graph.nodes[position]? with
  | some mode, some node =>
    if coordinator.state? position = some .pending then
      match coordinator.verdict plan node with
      | .abort error =>
        ((coordinator.modifyReport position (·.abandoned error)).finishOne node.stage, true)
      | .start =>
        let started : StartedTask := ⟨position, mode, coordinator.inputsOf node⟩
        let next := coordinator.modifyReport position (·.started)
        ({ next with running := next.running ++ [started] }, true)
      | .wait => (coordinator, false)
    else (coordinator, false)
  | _, _ => (coordinator, false)

/-- Visits all tasks in the order of the graph, and tells whether anything changed. -/
def pass (plan : RunPlan) (coordinator : Coordinator) : Coordinator × Bool :=
  (List.range plan.graph.size).foldl
    (fun (coordinator, changed) position =>
      let (next, changedNow) := visit plan coordinator position
      (next, changed || changedNow))
    (coordinator, false)

/-- Repeats passes until one changes nothing, at most `limit` times. -/
def settleWithin (plan : RunPlan) : (limit : Nat) → Coordinator → Coordinator
  | 0, coordinator => coordinator
  | limit + 1, coordinator =>
    match coordinator.pass plan with
    | (next, true) => settleWithin plan limit next
    | (next, false) => next

/-- Repeats passes until one changes nothing. Each of the others takes a task out of the pending
ones, so there are no more of them than tasks. -/
def settle (plan : RunPlan) (coordinator : Coordinator) : Coordinator :=
  settleWithin plan (plan.graph.size + 1) coordinator

/-- Takes in the result of a task that was handed out. -/
def complete (plan : RunPlan) (coordinator : Coordinator) (position : Nat)
    (result : Except TaskError Materialized) : Coordinator :=
  let stage := plan.graph.stageOf position
  let next := { coordinator with
    running := coordinator.running.filter (·.position ≠ position) }
  let next := (next.modifyReport position (·.finished result)).finishOne stage
  match result with
  | .ok _ => next
  | .error _ =>
    if plan.stopStageOnFailure then { next with stopped := stage :: next.stopped } else next

/-- The reports of all tasks that took part. -/
def result (coordinator : Coordinator) : RunResult where
  tasks := (coordinator.reports.filterMap id).mergeSort fun a b => (a.id.compare b.id).isLE

end Coordinator

end TablePipeline
