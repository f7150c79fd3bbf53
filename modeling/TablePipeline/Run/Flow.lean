import TablePipeline.Config
import TablePipeline.Run.Coordinator

/-! # Running a graph

A run settles the coordinator, materialises the oldest task that is handed out, takes in its result
and settles again, until no task is handed out. A full run has all tasks take part; a selected run
has its targets run anew and takes all that they read from the cache.
-/

namespace TablePipeline

namespace Coordinator

/-- Materialises tasks that are handed out, the oldest first, at most `limit` of them. -/
def drain (plan : RunPlan) : (limit : Nat) → Coordinator → Workshop → Coordinator × Workshop
  | 0, coordinator, workshop => (coordinator, workshop)
  | limit + 1, coordinator, workshop =>
    match coordinator.running with
    | [] => (coordinator, workshop)
    | started :: _ =>
      match plan.graph.nodes[started.position]? with
      | none => (coordinator, workshop)
      | some node =>
        let (workshop, result) := workshop.materialize (plan.job node started) started.mode
        drain plan limit ((coordinator.complete plan started.position result).settle plan) workshop

end Coordinator

/-- Runs a plan to its end. Every task is handed out at most once, so their number bounds the
run. -/
def RunPlan.run (plan : RunPlan) (workshop : Workshop) : RunResult × Workshop :=
  let (coordinator, workshop) := (plan.start.settle plan).drain plan plan.graph.size workshop
  (coordinator.result, workshop)

namespace RunConfig

/-- The plan in which all tasks take part. -/
def fullPlan (config : RunConfig) (graph : Graph) : RunPlan where
  graph := graph
  modes := graph.nodes.map fun _ => some (if config.ignoreCache then .recompute else .normal)
  stopStageOnFailure := config.stopStageOnFailure
  namespaceOf := config.namespaceOf

/-- The plan in which targets run anew and all that they read from is taken from the cache. -/
def selectedPlan (config : RunConfig) (graph : Graph) (targets : List TaskId) :
    Except GraphError RunPlan := do
  let positions ← graph.targetPositions targets
  let ancestors := graph.ancestorPositions positions
  return {
    graph
    modes := (List.range graph.size).map fun position =>
      if position ∈ positions then some .recompute
      else if position ∈ ancestors then some .cacheOnly
      else none
    stopStageOnFailure := config.stopStageOnFailure
    namespaceOf := config.namespaceOf }

/-- Runs all tasks of a graph. -/
def run (config : RunConfig) (graph : Graph) (workshop : Workshop) : RunResult × Workshop :=
  (config.fullPlan graph).run workshop

/-- Runs targets of a graph anew. -/
def runSelected (config : RunConfig) (graph : Graph) (targets : List TaskId) (workshop : Workshop) :
    Except GraphError (RunResult × Workshop) := do
  return (← config.selectedPlan graph targets).run workshop

end RunConfig

end TablePipeline
