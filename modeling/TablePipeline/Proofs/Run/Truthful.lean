import TablePipeline.Proofs.Run.Caching
import TablePipeline.Proofs.Run.Containment
import TablePipeline.Proofs.Run.Session

/-! # Results are truthful

In a session on a faithful store every result tells what the job of its task gives on what the
producers report, and the store stays faithful. So what is reported was made, and so were the inputs
of every task that is handed out.
-/

namespace TablePipeline

/-- Is a task deterministic, with a body as it is told from its recipe? -/
structure TaskNode.Lawful (bodies : Bodies) (node : TaskNode) : Prop where
  deterministic : node.task.determinism = .deterministic
  body : ∀ (inputs : List Artifact) (entropy : UInt64),
    node.task.body ⟨node.id, inputs, node.task.params, node.task.seed, node.task.determinism,
      entropy⟩ = bodies (node.task.recipe node.id) inputs

/-- Are all tasks of a graph deterministic, with bodies as they are told from their recipes? -/
def Graph.Lawful (bodies : Bodies) (graph : Graph) : Prop :=
  ∀ node ∈ graph.nodes, node.Lawful bodies

/-- The job of a task, given the reports of its producers. -/
def RunPlan.jobOf (plan : RunPlan) (node : TaskNode) (reports : List (Option TaskReport)) :
    Job where
  id := node.id
  namespaceName := plan.namespaceOf node.id.stage
  task := node.task
  inputs := node.inputsFrom reports

/-- The names of the outputs of a task are different. -/
theorem Graph.WellFormed.distinct {graph : Graph} (formed : graph.WellFormed) {node : TaskNode}
    (member : node ∈ graph.nodes) : (node.task.outputs.map (·.name)).Nodup := by
  have distinct := (List.nodup_flatMap.mp formed.outputs).1 node member
  refine List.Nodup.of_map (fun name => (node.id.stage, name)) ?_
  rwa [List.map_map]

theorem Graph.Lawful.job {bodies : Bodies} {plan : RunPlan} (lawful : plan.graph.Lawful bodies)
    (formed : plan.graph.WellFormed) {node : TaskNode} (member : node ∈ plan.graph.nodes)
    (reports : List (Option TaskReport)) : (plan.jobOf node reports).Lawful bodies where
  deterministic := (lawful node member).deterministic
  body _ := (lawful node member).body _ _
  distinct := formed.distinct member

namespace Coordinator

variable {bodies : Bodies} {jobs : Set Job} {plan : RunPlan} {coordinator : Coordinator}

/-- Results tell what the job of a task gives, and were made. -/
def truthful (bodies : Bodies) (jobs : Set Job) (plan : RunPlan) : Allowed :=
  fun position mode reports result => ∀ node, plan.graph.nodes[position]? = some node →
    (plan.jobOf node reports).Honest mode result ∧
      ∀ materialized, result = .ok materialized →
        ∀ output ∈ materialized.outputs, Made bodies jobs output

/-- What is reported was made. -/
theorem Reasoned.made (sound : plan.Sound) (coherent : coordinator.Coherent plan)
    (reasoned : coordinator.Reasoned plan (truthful bodies jobs plan)) {position : Nat}
    {report : TaskReport} (here : coordinator.report? position = some report)
    {output : StoredOutput} (member : output ∈ report.outputs) : Made bodies jobs output := by
  obtain ⟨node, isNode⟩ := coherent.isNode sound here
  cases reasoned.explained isNode here with
  | @ended mode result inputs takesPart allows =>
    cases result with
    | error => cases member
    | ok materialized => exact (allows _ isNode).2 materialized rfl output member
  | _ => cases member

/-- The inputs of a task were made. -/
theorem Reasoned.made_inputs (sound : plan.Sound) (coherent : coordinator.Coherent plan)
    (reasoned : coordinator.Reasoned plan (truthful bodies jobs plan)) (node : TaskNode) :
    ∀ input ∈ node.inputsFrom (coordinator.reportsOf node.producers), Made bodies jobs input := by
  intro input member
  rw [TaskNode.inputsFrom, List.mem_filterMap] at member
  obtain ⟨⟨reference, report?⟩, inZip, found⟩ := member
  obtain ⟨report, rfl, placed⟩ := Option.bind_eq_some_iff.mp found
  obtain ⟨producer, _, here⟩ := List.mem_map.mp (List.of_mem_zip inZip).2
  exact reasoned.made sound coherent here (List.mem_of_getElem? placed)

/-- The job of a task that is handed out is the job that the reports of its producers ask for. -/
theorem HandedOut.job_eq {started : StartedTask} (handedOut : HandedOut plan coordinator started)
    {node : TaskNode} (isNode : plan.graph.nodes[started.position]? = some node) :
    plan.job node started = plan.jobOf node (coordinator.reportsOf node.producers) := by
  obtain ⟨_, node', isNode', given, _⟩ := handedOut
  cases isNode.symm.trans isNode'
  rw [RunPlan.job, given, inputsOf_eq]
  rfl

end Coordinator

namespace Session

open Coordinator

variable {bodies : Bodies} {all : Set Job} {plan : RunPlan} {others : Interference}
  {opened workshop : Workshop} {events : List Event} {jobs : List Job} {coordinator : Coordinator}

/-- The jobs of a session are those of tasks of the graph, for some reports of their producers. -/
theorem mem_jobs (session : Session plan others opened events jobs coordinator workshop)
    (sound : plan.Sound) {job : Job} (member : job ∈ jobs) :
    ∃ node ∈ plan.graph.nodes, ∃ reports, job = plan.jobOf node reports := by
  induction session with
  | start => cases member
  | scan _ _ ih => exact ih member
  | other _ _ ih => exact ih member
  | @finish events jobs coordinator _ _ started node _ session running isNode _ ih =>
    rcases List.mem_append.mp member with old | new
    · exact ih old
    · have path : Path plan (allows plan fun _ _ _ _ => True) plan.start events coordinator :=
        session.path
      have handedOut := (path.reasoned sound).handedOut started running
      rw [List.mem_singleton.mp new, handedOut.job_eq isNode]
      exact ⟨node, List.mem_of_getElem? isNode, _, rfl⟩

/-- A session on a faithful store keeps it faithful, and its results are truthful. -/
theorem truthful (session : Session plan others opened events jobs coordinator workshop)
    (sound : plan.Sound) (lawful : plan.graph.Lawful bodies) (collisionless : Collisionless all)
    (known : ∀ job ∈ jobs, job ∈ all)
    (harmless : ∀ {store next}, others store next → store.Faithful bodies all →
      next.Faithful bodies all)
    (faithful : opened.store.Faithful bodies all) :
    Path plan (allows plan (Coordinator.truthful bodies all plan)) plan.start events coordinator ∧
      workshop.store.Faithful bodies all := by
  induction session with
  | start => exact ⟨.refl, faithful⟩
  | scan _ move ih =>
    obtain ⟨path, faithful⟩ := ih known
    exact ⟨path.tail (move.imp fun not => not.elim), faithful⟩
  | other _ happens ih =>
    obtain ⟨path, faithful⟩ := ih known
    exact ⟨path, harmless happens faithful⟩
  | @finish events jobs coordinator workshop after started node result _ running isNode done ih =>
    obtain ⟨path, faithful⟩ := ih fun job member => known job (List.mem_append_left _ member)
    have coherent := path.coherent sound
    have reasoned := path.reasoned sound
    have isJob := (reasoned.handedOut started running).job_eq isNode
    have isKnown := known (plan.job node started) (List.mem_append_right _ (.head _))
    rw [isJob] at done isKnown
    have isLawful := lawful.job sound.formed (List.mem_of_getElem? isNode)
      (coordinator.reportsOf node.producers)
    have made := reasoned.made_inputs sound coherent node
    obtain ⟨stays, honest⟩ := Workshop.materialize_honest collisionless isLawful isKnown made
      faithful started.mode
    rw [done] at stays honest
    refine ⟨path.tail (.finish running ?_), stays⟩
    rw [allows, producersOf_eq isNode]
    intro node' isNode'
    cases isNode.symm.trans isNode'
    refine ⟨honest, fun materialized here output isOutput => ?_⟩
    exact .output isLawful isKnown made (honest.outputs here).2 isOutput

end Session

end TablePipeline
