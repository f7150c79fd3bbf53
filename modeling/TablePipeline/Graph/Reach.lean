import TablePipeline.Graph.Basic

/-! # What tasks and stages depend on

All edges of a graph lead to earlier positions: a task reads tasks that were added before it, and a
stage reads stages before it. What can be reached along them is therefore found in one pass from the
last position to the first.
-/

namespace TablePipeline

/-- The positions reached from some of them along edges to smaller positions, visiting the positions
below `count` from the last to the first. -/
def reachDown (edges : Nat → List Nat) : (count : Nat) → List Nat → List Nat
  | 0, reached => reached
  | position + 1, reached =>
    reachDown edges position
      (if position ∈ reached then reached ++ (edges position).filter (· ∉ reached) else reached)

namespace Graph

/-- The positions of the tasks that a task reads. -/
def producersOf (graph : Graph) (position : Nat) : List Nat :=
  (graph.nodes[position]?.map (·.producers)).getD []

/-- The position of the stage of a task. -/
def stageOf (graph : Graph) (position : Nat) : Nat :=
  (graph.nodes[position]?.map (·.stage)).getD 0

/-- The other stages that tasks of a stage read from. -/
def stageReads (graph : Graph) (stage : Nat) : List Nat :=
  ((graph.nodes.filter (·.stage = stage)).flatMap fun node =>
    node.producers.map graph.stageOf).filter (· ≠ stage)

/-- The earlier stages that a stage reads from, also through other stages. -/
def stageDeps (graph : Graph) (stage : Nat) : List Nat :=
  let reached := reachDown graph.stageReads graph.stages.length [stage]
  (List.range stage).filter (· ∈ reached)

/-- The names of the stages that a stage depends on. -/
def stagesBefore (graph : Graph) (stage : String) : List String :=
  match graph.stages.findIdx? (· = stage) with
  | none => []
  | some position => (graph.stageDeps position).filterMap (graph.stages[·]?)

/-- The positions of the tasks that are not cached and of all tasks that read from them, also
through other tasks: all whose outputs may lie elsewhere in the next run. -/
def unrepeatable (graph : Graph) : List Nat :=
  graph.nodes.zipIdx.foldl
    (fun found (node, position) =>
      if node.task.determinism = .nonCacheable || node.producers.any found.contains then
        found ++ [position]
      else found)
    []

/-- The positions of the targets. -/
def targetPositions (graph : Graph) (targets : List TaskId) : Except GraphError (List Nat) :=
  targets.mapM fun id =>
    match graph.position? id with
    | some position => .ok position
    | none => .error (.unknownTarget id)

/-- The positions of all tasks that targets read from, also through other tasks, without the
targets. -/
def ancestorPositions (graph : Graph) (targets : List Nat) : List Nat :=
  let reached := reachDown graph.producersOf graph.size targets
  (List.range graph.size).filter fun position => position ∈ reached && position ∉ targets

/-- All tasks that targets read from, also through other tasks, without the targets; in the order of
their identities. -/
def ancestors (graph : Graph) (targets : List TaskId) : Except GraphError (List TaskId) := do
  let positions := graph.ancestorPositions (← graph.targetPositions targets)
  let ids := positions.filterMap fun position => graph.nodes[position]?.map (·.id)
  return ids.mergeSort fun a b => (a.compare b).isLE

end Graph

end TablePipeline
