import TablePipeline.Proofs.Run.Effects
import TablePipeline.Proofs.Run.Transparency

/-! # Which tasks run again

Some tasks of a graph are given another version, other parameters or another seed, and the graph is
run again on the store that a successful run left. A fingerprint covers these, and the addresses of
all inputs; so a change reaches a task that is changed, and one that reads a task that it reaches,
and no other. The tasks that are reached run again, as nothing is recorded for their new
fingerprints, and all others are served what the first run stored.
-/

namespace TablePipeline

/-- Is a task another one with the same place in a graph? Exactly the tasks that are changed have
another version, other parameters or another seed. Bodies may be any. -/
structure TaskNode.Revises (changed : Set TaskId) (node node' : TaskNode) : Prop where
  id : node'.id = node.id
  stage : node'.stage = node.stage
  producers : node'.producers = node.producers
  inputs : node'.task.inputs = node.task.inputs
  outputs : node'.task.outputs = node.task.outputs
  changed : node.id ∈ changed ↔ node'.task.version ≠ node.task.version ∨
    node'.task.params ≠ node.task.params ∨ node'.task.seed ≠ node.task.seed

/-- Is a graph another one with some tasks changed? -/
structure Graph.Revises (changed : Set TaskId) (graph graph' : Graph) : Prop where
  stages : graph'.stages = graph.stages
  nodes : List.Forall₂ (TaskNode.Revises changed) graph.nodes graph'.nodes

/-- Are all tasks of a graph deterministic? -/
def Graph.Deterministic (graph : Graph) : Prop :=
  ∀ node ∈ graph.nodes, node.task.determinism = .deterministic

/-- Does a change reach a task? It does if the task is changed, or reads one that is, also through
other tasks. -/
def Graph.Affected (graph : Graph) (changed : Set TaskId) (position : Nat) : Prop :=
  ∃ source node, graph.nodes[source]? = some node ∧ node.id ∈ changed ∧
    (position = source ∨ graph.Reads position source)

section

variable {changed : Set TaskId} {graph graph' : Graph}

theorem Graph.Revises.getElem? (revises : graph.Revises changed graph') {position : Nat}
    {node' : TaskNode} (isNode' : graph'.nodes[position]? = some node') :
    ∃ node, graph.nodes[position]? = some node ∧ node.Revises changed node' := by
  obtain ⟨inside, rfl⟩ := List.getElem?_eq_some_iff.mp isNode'
  have inside' : position < graph.nodes.length := by
    rwa [revises.nodes.length_eq]
  exact ⟨_, List.getElem?_eq_getElem inside', revises.nodes.get inside' inside⟩

/-- A task whose recipe stays is not changed. -/
theorem TaskNode.Revises.recipe_eq {node node' : TaskNode} (revises : node.Revises changed node') :
    node'.task.recipe node'.id = node.task.recipe node.id ↔ node.id ∉ changed := by
  simp only [Task.recipe, Recipe.mk.injEq, revises.id, revises.outputs, revises.changed, not_or,
    not_not, true_and, and_true]

/-- A change reaches a task that is changed, and one that reads a task that it reaches. -/
theorem Graph.affected_iff {position : Nat} {node : TaskNode}
    (isNode : graph.nodes[position]? = some node) :
    graph.Affected changed position ↔
      node.id ∈ changed ∨ ∃ producer ∈ node.producers, graph.Affected changed producer := by
  have produces {producer : Nat} : producer ∈ graph.producersOf position ↔
      producer ∈ node.producers := by
    rw [Coordinator.producersOf_eq isNode]
  constructor
  · rintro ⟨source, other, isOther, isChanged, rfl | reads⟩
    · cases isNode.symm.trans isOther
      exact .inl isChanged
    · rcases Relation.TransGen.head'_iff.mp reads with ⟨producer, next, rest⟩
      refine .inr ⟨producer, produces.mp next, source, other, isOther, isChanged, ?_⟩
      exact (Relation.reflTransGen_iff_eq_or_transGen.mp rest).imp Eq.symm id
  · rintro (isChanged | ⟨producer, member, source, other, isOther, isChanged, reached⟩)
    · exact ⟨position, node, isNode, isChanged, .inl rfl⟩
    · refine ⟨source, other, isOther, isChanged, .inr ?_⟩
      rcases reached with rfl | reads
      · exact .single (produces.mpr member)
      · exact .head (produces.mpr member) reads

end

/-- A fingerprint covers the recipe of a task and the addresses of its inputs, and nothing else. -/
theorem Task.fingerprint_congr {task task' : Task} {id id' : TaskId}
    (recipe : task.recipe id = task'.recipe id') (inputs : List Address) :
    task.fingerprint id inputs = task'.fingerprint id' inputs := by
  simp only [Task.recipe, Recipe.mk.injEq] at recipe
  obtain ⟨ids, versions, params, seeds, outputs⟩ := recipe
  simp only [fingerprint, fields, ids, versions, params, seeds, outputs]

/-- Where two lists are mapped alike, what stands for an item in one is like what stands for it in
the other. -/
theorem exists_pair_of_map_eq {α β γ δ : Type} {related : α → β → Prop} {related' : α → γ → Prop}
    {items : List α} {results : List β} {others : List γ}
    (each : List.Forall₂ related items results) (each' : List.Forall₂ related' items others)
    {f : β → δ} {g : γ → δ} (same : results.map f = others.map g) {item : α}
    (member : item ∈ items) :
    ∃ result other, related item result ∧ related' item other ∧ f result = g other := by
  induction each generalizing others with
  | nil => cases member
  | cons first _ ih =>
    cases each' with
    | cons first' rest' =>
      obtain ⟨heads, tails⟩ := List.cons.inj same
      rcases List.mem_cons.mp member with rfl | member
      · exact ⟨_, _, first, first', heads⟩
      · exact ih rest' tails member

/-- Every task of a graph takes part in a full run. -/
theorem RunConfig.takesPart_fullPlan {config : RunConfig} {graph : Graph} {position : Nat}
    {node : TaskNode} (isNode : graph.nodes[position]? = some node) :
    ((config.fullPlan graph).mode? position).isSome := by
  have inside : position < graph.size := (List.getElem?_eq_some_iff.mp isNode).1
  rw [mode?_fullPlan, if_pos inside]
  rfl

/-! ## What the first run left -/

open Coordinator

/-- What a successful run of deterministic tasks left: the cache has what every task reports under
the fingerprint of its job, and nothing is recorded for other fingerprints. -/
structure Left (plan : RunPlan) (jobs : List Job) (last : Coordinator) (store : Store) : Prop where
  proper : store.Proper
  reported : ∀ {position : Nat} {node : TaskNode}, plan.graph.nodes[position]? = some node →
    ∃ report, last.report? position = some report ∧
      let job := plan.jobOf node (last.reportsOf node.producers)
      job ∈ jobs ∧ report.fingerprint = some job.fingerprint ∧
        store.cached job.namespaceName job.fingerprint job.task.outputs = .ok (.hit report.outputs)
  supplied : ∀ {position : Nat} {node : TaskNode}, plan.graph.nodes[position]? = some node →
    List.Forall₂ (Supplies plan last) node.task.inputs (last.inputsOf node)
  asked : ∀ job ∈ jobs, ∃ (position : Nat) (node : TaskNode),
    plan.graph.nodes[position]? = some node ∧ job = plan.jobOf node (last.reportsOf node.producers)
  recorded : ∀ {key : OutputKey} {address : Address}, store.index.find? key = some address →
    ∃ job ∈ jobs, job.fingerprint = key.fingerprint

/-- The place of a deterministic job is its fingerprint. -/
theorem Job.Place.eq_own {job : Job} {runs : Set Nat} {place : Fingerprint}
    (placed : job.Place runs place) (deterministic : job.task.determinism = .deterministic) :
    place = job.fingerprint := by
  cases placed with
  | own => rfl
  | ofRun fresh => cases fresh.symm.trans deterministic

section

variable {config : RunConfig} {graph : Graph} {events : List Event} {jobs : List Job}
  {last : Coordinator} {opened closed : Workshop}

/-- The jobs of deterministic tasks are deterministic. -/
theorem RunPlan.deterministic_jobOf (plan : RunPlan) (deterministic : plan.graph.Deterministic)
    {position : Nat} {node : TaskNode} (isNode : plan.graph.nodes[position]? = some node)
    (reports : List (Option TaskReport)) :
    (plan.jobOf node reports).task.determinism = .deterministic :=
  deterministic node (List.mem_of_getElem? isNode)

/-- A session of deterministic tasks keeps account of all that it writes. -/
theorem Session.stocked_of_deterministic {plan : RunPlan} {all : Set Job}
    (session : Session plan alone opened events jobs last closed) (sound : plan.Sound)
    (deterministic : plan.graph.Deterministic) (proper : opened.store.Proper)
    (collisionless : Collisionless all) (known : ∀ job ∈ jobs, job ∈ all) :
    Session.Stocked plan Set.univ opened.store jobs last closed.store := by
  have few : Collisionless {job | job ∈ jobs} := collisionless.mono known
  refine session.stocked sound proper (few.noCollision (fun job member => ?_) Set.univ)
    (fun _ => id) fun _ _ _ => trivial
  obtain ⟨isNode, _⟩ := session.done sound member
  exact plan.deterministic_jobOf deterministic isNode _

/-- A run that succeeds on an empty store leaves what its tasks report. -/
theorem Session.left (built : graph.Built) (deterministic : graph.Deterministic)
    (session : Session (config.fullPlan graph) alone opened events jobs last closed)
    (exits : last.Exits (config.fullPlan graph)) (successful : last.result.successful = true)
    (empty : opened.store = .empty) {all : Set Job} (collisionless : Collisionless all)
    (known : ∀ job ∈ jobs, job ∈ all) :
    Left (config.fullPlan graph) jobs last closed.store := by
  have plans : config.Plans graph (config.fullPlan graph) := .full
  have sound := plans.sound built
  have coherent := session.path.coherent sound
  have path := session.complete_path
  have reasoned := path.reasoned sound
  have proper : opened.store.Proper := by
    rw [empty]
    exact Store.Reached.empty.proper
  have stocked := session.stocked_of_deterministic sound deterministic proper collisionless known
  have succeeds {position : Nat} {node : TaskNode} (isNode : graph.nodes[position]? = some node) :
      ∃ report, last.report? position = some report ∧ report.state.isSuccess = true := by
    obtain ⟨report, here, _⟩ :=
      (final_of_exits sound coherent exits).report (RunConfig.takesPart_fullPlan isNode)
    exact ⟨report, here, successful_iff.mp successful position report here⟩
  obtain ⟨writes, same, _, _, keys⟩ := stocked.wrote
  refine ⟨?_, fun {position node} isNode => ?_, fun {position node} isNode => ?_,
    fun job member => ?_, fun {key address} here => ?_⟩
  · rw [same]
    exact proper.putEach writes
  · obtain ⟨report, here, success⟩ := succeeds isNode
    obtain ⟨job, isJob, rfl, fingerprint, place, placed, hit⟩ := stocked.holds isNode here success
    cases placed.eq_own ((config.fullPlan graph).deterministic_jobOf deterministic isNode _)
    exact ⟨report, here, isJob, fingerprint, hit⟩
  · obtain ⟨report, here, success⟩ := succeeds isNode
    exact reasoned.supplies sound isNode (reasoned.hasInputs isNode here success)
  · obtain ⟨isNode, _⟩ := session.done sound member
    exact ⟨_, _, isNode, rfl⟩
  · by_cases written : ∃ write ∈ writes, write.key = key
    · obtain ⟨write, member, rfl⟩ := written
      obtain ⟨job, isJob, place, placed, spec, _, isKey⟩ := keys write member
      obtain ⟨isNode, _⟩ := session.done sound isJob
      have own := placed.eq_own ((config.fullPlan graph).deterministic_jobOf deterministic isNode _)
      refine ⟨_, isJob, ?_⟩
      rw [isKey]
      exact own.symm
    · push Not at written
      rw [same, Store.index_putEach written, empty] at here
      cases here

end

/-! ## How a job comes out on that store -/

namespace Workshop

variable {workshop : Workshop} {job : Job}

theorem materialize_of_hit (deterministic : job.task.determinism = .deterministic)
    {outputs : List StoredOutput}
    (hit : workshop.store.cached job.namespaceName job.fingerprint job.task.outputs =
      .ok (.hit outputs)) :
    workshop.materialize job .normal =
      (workshop, .ok ⟨job.fingerprint, outputs, .cache, false⟩) := by
  simp only [materialize, deterministic, hit]

theorem materialize_of_miss (deterministic : job.task.determinism = .deterministic)
    {inconsistent : Bool}
    (miss : workshop.store.cached job.namespaceName job.fingerprint job.task.outputs =
      .ok (.miss inconsistent)) :
    workshop.materialize job .normal = workshop.recompute job inconsistent := by
  simp only [materialize, deterministic, miss]

/-- A job for whose fingerprint nothing is recorded is run. -/
theorem materialize_of_unrecorded (deterministic : job.task.determinism = .deterministic)
    (unrecorded : ∀ key : OutputKey, key.fingerprint = job.fingerprint →
      workshop.store.index.find? key = none) :
    workshop.materialize job .normal = workshop.recompute job false := by
  refine materialize_of_miss deterministic ?_
  obtain ⟨spec, rest, outputs⟩ := List.exists_cons_of_ne_nil job.task.outputs_ne_nil
  rw [outputs, Store.cached, Store.cachedOutput, Store.lookup, unrecorded _ rfl]
  rfl

end Workshop

/-! ## The second run -/

/-- How a task ends in the second run: if the change reaches it, it succeeds under a fingerprint
that no job of the first run has, and if not, it is served what it reported in the first run. -/
inductive Rerun (graph : Graph) (changed : Set TaskId) (jobs : List Job) (last : Coordinator)
    (position : Nat) (report : TaskReport) : Prop where
  | again (reached : graph.Affected changed position) (succeeded : report.state = .succeeded)
      (fresh : ∀ job ∈ jobs, report.fingerprint ≠ some job.fingerprint)
  | kept {old : TaskReport} (spared : ¬graph.Affected changed position)
      (wasHere : last.report? position = some old) (skipped : report.state = .skipped)
      (fingerprint : report.fingerprint = old.fingerprint) (outputs : report.outputs = old.outputs)

/-- What holds at every moment of the second run. -/
structure Renewing (graph : Graph) (changed : Set TaskId) (jobs : List Job) (last : Coordinator)
    (store : Store) (jobs' : List Job) (now : Coordinator) (store' : Store) : Prop where
  ended : ∀ {position : Nat} {report : TaskReport}, now.report? position = some report →
    report.state.isTerminal = true → Rerun graph changed jobs last position report
  stopped : now.stopped = []
  /-- Only outputs of tasks that the change reaches were written. -/
  wrote : ∃ writes, store' = store.putEach writes ∧ ∀ write ∈ writes,
    (∃ position, graph.Affected changed position) ∧
    ∃ job ∈ jobs', ∃ spec ∈ job.task.outputs, write.key = job.key job.fingerprint spec ∧
      ∀ old ∈ jobs, job.fingerprint ≠ old.fingerprint

section

variable {config : RunConfig} {graph graph' : Graph} {changed : Set TaskId}
  {jobs jobs' : List Job} {last now : Coordinator} {store opened store' : Store} {all : Set Job}

/-- A task that the change does not reach asks for the same job again. -/
theorem TaskNode.Revises.job_of_spared (config : RunConfig)
    (renewing : Renewing graph' changed jobs last opened jobs' now store')
    {position : Nat} {node node' : TaskNode} (isNode' : graph'.nodes[position]? = some node')
    (revised : node.Revises changed node')
    (inputs : now.hasInputs node'.producers = true) (spared : ¬graph'.Affected changed position) :
    let job := (config.fullPlan graph).jobOf node (last.reportsOf node.producers)
    let job' := (config.fullPlan graph').jobOf node' (now.reportsOf node'.producers)
    job'.namespaceName = job.namespaceName ∧ job'.fingerprint = job.fingerprint := by
  rw [Graph.affected_iff isNode', not_or, revised.id] at spared
  obtain ⟨unchanged, producers⟩ := spared
  have outputs : (now.reportsOf node'.producers).map (Option.map TaskReport.outputs) =
      (last.reportsOf node.producers).map (Option.map TaskReport.outputs) := by
    rw [reportsOf, reportsOf, List.map_map, List.map_map, revised.producers]
    refine List.map_congr_left fun producer member => ?_
    rw [← revised.producers] at member
    obtain ⟨report, here, success⟩ := hasInputs_iff.mp inputs producer member
    cases renewing.ended here (isTerminal_of_isSuccess success) with
    | again reached => exact absurd ⟨producer, member, reached⟩ producers
    | kept _ wasHere _ _ same =>
      rw [Function.comp_apply, Function.comp_apply, here, wasHere, Option.map_some,
        Option.map_some, same]
  have reads := TaskNode.inputsFrom_congr revised.inputs outputs
  dsimp only [RunPlan.jobOf, Job.fingerprint]
  refine ⟨?_, ?_⟩
  · rw [revised.id]
    rfl
  · rw [reads]
    exact Task.fingerprint_congr (revised.recipe_eq.mpr unchanged) _

/-- The address of an output that the cache has belongs to the job that it was asked for. -/
theorem Store.Proper.address_of_cached (proper : store.Proper) {job : Job}
    {outputs : List StoredOutput}
    (hit : store.cached job.namespaceName job.fingerprint job.task.outputs = .ok (.hit outputs))
    {output : StoredOutput} (member : output ∈ outputs) :
    ∃ spec ∈ job.task.outputs, output.address = job.address spec.name := by
  have address := List.mem_map_of_mem (f := (·.address)) member
  rw [proper.addresses_of_cached hit] at address
  obtain ⟨spec, isSpec, same⟩ := List.mem_map.mp address
  exact ⟨spec, isSpec, same.symm⟩

section

variable {events' : List Event} {opened' workshop' : Workshop} (built : graph.Built)
  (built' : graph'.Built) (deterministic' : graph'.Deterministic)
  (revises : graph.Revises changed graph') (collisionless : Collisionless all)
  (left : Left (config.fullPlan graph) jobs last opened'.store) (known : ∀ job ∈ jobs, job ∈ all)

include built built' deterministic' revises collisionless left known

omit built in
/-- The outputs of a task that the change reaches do not lie where the first run had outputs of the
task. -/
theorem Session.digest_ne_of_affected
    (session : Session (config.fullPlan graph') alone opened' events' jobs' now workshop')
    (known' : ∀ job ∈ jobs', job ∈ all)
    (renewing : Renewing graph' changed jobs last opened'.store jobs' now workshop'.store)
    {position : Nat} {node' : TaskNode} {report report' : TaskReport}
    (isNode' : graph'.nodes[position]? = some node') (here : last.report? position = some report)
    (here' : now.report? position = some report') (success : report'.state.isSuccess = true)
    (reached : graph'.Affected changed position) {output output' : StoredOutput}
    (member : output ∈ report.outputs) (member' : output' ∈ report'.outputs) :
    output'.address.digest ≠ output.address.digest := by
  intro digest
  have plans' : config.Plans graph' (config.fullPlan graph') := .full
  have sound' := plans'.sound built'
  obtain ⟨node, isNode, _⟩ := revises.getElem? isNode'
  have stocked := session.stocked_of_deterministic sound' deterministic' left.proper collisionless
    known'
  have proper' : workshop'.store.Proper := by
    obtain ⟨writes, same, _⟩ := renewing.wrote
    rw [same]
    exact left.proper.putEach writes
  obtain ⟨job', isJob', rfl, fingerprint', _, placed, hit'⟩ := stocked.holds isNode' here' success
  cases placed.eq_own ((config.fullPlan graph').deterministic_jobOf deterministic' isNode' _)
  obtain ⟨_, wasHere, isJob, _, hit⟩ := left.reported isNode
  cases here.symm.trans wasHere
  obtain ⟨spec', isSpec', address'⟩ := proper'.address_of_cached hit' member'
  obtain ⟨spec, isSpec, address⟩ := left.proper.address_of_cached hit member
  rw [address', address] at digest
  obtain ⟨_, _, fingerprints⟩ := collisionless.address_inj (known' _ isJob') (known _ isJob)
    isSpec' isSpec digest
  cases renewing.ended here' (isTerminal_of_isSuccess success) with
  | again _ _ fresh => exact fresh _ isJob (fingerprint'.trans (congrArg some fingerprints))
  | kept spared => exact spared reached

/-- A task that the change reaches asks for a job that the first run did not have: its recipe is
another one, or one of its inputs lies at another address. -/
theorem Session.fresh_of_affected
    (session : Session (config.fullPlan graph') alone opened' events' jobs' now workshop')
    (known' : ∀ job ∈ jobs', job ∈ all)
    (renewing : Renewing graph' changed jobs last opened'.store jobs' now workshop'.store)
    {position : Nat} {node' : TaskNode} (isNode' : graph'.nodes[position]? = some node')
    (inputs : now.hasInputs node'.producers = true) {job' : Job}
    (isJob' : job' = (config.fullPlan graph').jobOf node' (now.reportsOf node'.producers))
    (isKnown : job' ∈ all) (reached : graph'.Affected changed position) :
    ∀ old ∈ jobs, job'.fingerprint ≠ old.fingerprint := by
  intro old isOld same
  have plans' : config.Plans graph' (config.fullPlan graph') := .full
  have sound' := plans'.sound built'
  have formed := built.wellFormed
  obtain ⟨recipes, digests⟩ := collisionless.fingerprint_inj isKnown (known old isOld) same
  obtain ⟨place, node, isNode, rfl⟩ := left.asked old isOld
  obtain ⟨other, isOther, revised⟩ := revises.getElem? isNode'
  subst isJob'
  -- it is the same task, and it is not changed
  have ids : node'.id = node.id := congrArg Recipe.id recipes
  have here := formed.position?_id isOther
  rw [← revised.id, ids, formed.position?_id isNode, Option.some.injEq] at here
  subst here
  cases isNode.symm.trans isOther
  rw [Graph.affected_iff isNode', revised.id] at reached
  obtain ⟨producer, member, reached⟩ := reached.resolve_left (revised.recipe_eq.mp recipes)
  -- so it reads a task that the change reaches, at the address where the first run had it
  obtain ⟨input, isInput, given⟩ := exists_of_mem_right (sound'.formed.gives isNode') member
  obtain ⟨source', isSource', named', _⟩ := given.source
  obtain ⟨source, isSource, renamed⟩ := revises.getElem? isSource'
  have supplied' := (session.complete_path.reasoned sound').supplies sound' isNode' inputs
  have supplied := left.supplied isNode
  rw [inputsOf_eq] at supplied supplied'
  rw [← revised.inputs] at supplied
  obtain ⟨output', output, ⟨place', other', report', isOther', same', _, here', output'At⟩,
    ⟨place, other, report, isOther, same, _, here, outputAt⟩, digest⟩ :=
    exists_pair_of_map_eq supplied' supplied digests isInput
  have atProducer' := sound'.formed.position?_id isOther'
  rw [same', ← named', sound'.formed.position?_id isSource', Option.some.injEq] at atProducer'
  have atProducer := formed.position?_id isOther
  rw [same, ← named', renamed.id, formed.position?_id isSource, Option.some.injEq] at atProducer
  subst atProducer' atProducer
  obtain ⟨_, isHere, success⟩ := hasInputs_iff.mp inputs _ member
  cases here'.symm.trans isHere
  exact session.digest_ne_of_affected built' deterministic' revises collisionless left known known'
    renewing isOther' here here' success reached (List.mem_of_getElem? outputAt)
    (List.mem_of_getElem? output'At) digest

omit built revises known in
/-- A task that the change reaches runs, since nothing is recorded for its new fingerprint. -/
theorem Session.materialize_of_affected
    (session : Session (config.fullPlan graph') alone opened' events' jobs' now workshop')
    {started : StartedTask} {node' : TaskNode} (running : started ∈ now.running)
    (isNode' : graph'.nodes[started.position]? = some node') {job' : Job}
    (isJob' : job' = (config.fullPlan graph').jobOf node' (now.reportsOf node'.producers))
    (known' : ∀ job ∈ jobs' ++ [job'], job ∈ all)
    (renewing : Renewing graph' changed jobs last opened'.store jobs' now workshop'.store)
    (fresh : ∀ old ∈ jobs, job'.fingerprint ≠ old.fingerprint) :
    workshop'.materialize job' .normal = workshop'.recompute job' false := by
  have plans' : config.Plans graph' (config.fullPlan graph') := .full
  have deterministic : job'.task.determinism = .deterministic := by
    rw [isJob']
    exact (config.fullPlan graph').deterministic_jobOf deterministic' isNode' _
  refine Workshop.materialize_of_unrecorded deterministic fun key isKey => ?_
  obtain ⟨writes, same, keys⟩ := renewing.wrote
  have elsewhere : ∀ write ∈ writes, write.key ≠ key := by
    rintro write member rfl
    obtain ⟨_, job, isJob, spec, _, written, _⟩ := keys write member
    have fingerprints : job.fingerprint = job'.fingerprint := by
      rw [← isKey, written]
      rfl
    have recipes := (collisionless.fingerprint_inj (known' job (List.mem_append_left _ isJob))
      (known' job' (List.mem_append_right _ (.head _))) fingerprints).1
    have ids : job.id = job'.id := congrArg Recipe.id recipes
    rw [isJob'] at ids
    exact session.id_ne (plans'.sound built') running isNode' isJob ids
  rw [same, Store.index_putEach elsewhere]
  cases recorded : opened'.store.index.find? key with
  | none => rfl
  | some address =>
    obtain ⟨old, isOld, same⟩ := left.recorded recorded
    exact absurd (isKey.symm.trans same.symm) (fresh old isOld)

omit built built' known in
/-- A task that the change does not reach is served what it reported in the first run. -/
theorem Renewing.materialize_of_spared
    (renewing : Renewing graph' changed jobs last opened'.store jobs' now workshop'.store)
    {position : Nat} {node' : TaskNode} (isNode' : graph'.nodes[position]? = some node')
    (inputs : now.hasInputs node'.producers = true) {job' : Job}
    (isJob' : job' = (config.fullPlan graph').jobOf node' (now.reportsOf node'.producers))
    (known' : ∀ job ∈ jobs' ++ [job'], job ∈ all) (spared : ¬graph'.Affected changed position) :
    ∃ old, last.report? position = some old ∧ old.fingerprint = some job'.fingerprint ∧
      workshop'.materialize job' .normal =
        (workshop', .ok ⟨job'.fingerprint, old.outputs, .cache, false⟩) := by
  obtain ⟨node, isNode, revised⟩ := revises.getElem? isNode'
  obtain ⟨namespaces, fingerprints⟩ :=
    revised.job_of_spared config renewing isNode' inputs spared
  obtain ⟨old, wasHere, isOld, fingerprint, hit⟩ := left.reported isNode
  have deterministic := (config.fullPlan graph').deterministic_jobOf deterministic' isNode'
    (now.reportsOf node'.producers)
  rw [← isJob'] at namespaces fingerprints deterministic
  have outputs : job'.task.outputs = node.task.outputs := by
    rw [isJob']
    exact revised.outputs
  refine ⟨old, wasHere, fingerprint.trans (congrArg some fingerprints.symm),
    Workshop.materialize_of_hit deterministic ?_⟩
  obtain ⟨writes, same, keys⟩ := renewing.wrote
  rw [same]
  refine left.proper.cached_putEach ?_ fun write member spec isSpec overwrites => ?_
  · rw [namespaces, fingerprints, outputs]
    exact hit
  · obtain ⟨_, job, isJob, written, isWritten, isKey, fresh⟩ := keys write member
    rw [isKey] at overwrites
    obtain ⟨_, _, same⟩ := collisionless.address_inj (known' job (List.mem_append_left _ isJob))
      (known' job' (List.mem_append_right _ (.head _))) isWritten isSpec
      (congrArg Address.digest overwrites)
    exact fresh _ isOld (same.trans fingerprints)

omit built built' deterministic' revises collisionless left known in
/-- A task that comes back as it should leaves all as it should be. -/
theorem Renewing.complete
    (renewing : Renewing graph' changed jobs last opened jobs' now store') {plan : RunPlan}
    {started : StartedTask} (running : started ∈ now.running) {materialized : Materialized}
    (ends : ∀ before : TaskReport, Rerun graph' changed jobs last started.position
      (before.finished (.ok materialized))) {job' : Job} {more : List Write}
    (added : ∀ write ∈ more, graph'.Affected changed started.position ∧
      (∃ spec ∈ job'.task.outputs, write.key = job'.key job'.fingerprint spec) ∧
      ∀ old ∈ jobs, job'.fingerprint ≠ old.fingerprint) :
    Renewing graph' changed jobs last opened (jobs' ++ [job'])
      (now.complete plan started.position (.ok materialized)) (store'.putEach more) := by
  have move : Move plan anyResult now (.finish started.position (.ok materialized)) _ :=
    .finish running trivial
  obtain ⟨writes, same, keys⟩ := renewing.wrote
  refine ⟨fun {position report} here ended => ?_, renewing.stopped, writes ++ more, ?_,
    fun write member => ?_⟩
  · rw [move.report?] at here
    split at here
    · rename_i isHere
      obtain ⟨before, _, rfl⟩ := Option.map_eq_some_iff.mp here
      rw [isHere]
      exact ends before
    · exact renewing.ended here ended
  · rw [same, Store.putEach_append]
  · rcases List.mem_append.mp member with old | new
    · obtain ⟨reached, job, isJob, written⟩ := keys write old
      exact ⟨reached, job, List.mem_append_left _ isJob, written⟩
    · obtain ⟨reached, ⟨spec, isSpec, isKey⟩, fresh⟩ := added write new
      exact ⟨⟨_, reached⟩, job', List.mem_append_right _ (.head _), spec, isSpec, isKey, fresh⟩

/-- A task of the second run comes back as it should. -/
theorem Session.renewing_finish
    (session : Session (config.fullPlan graph') alone opened' events' jobs' now workshop')
    (looks : config.ignoreCache = false)
    {started : StartedTask} {node' : TaskNode} (running : started ∈ now.running)
    (isNode' : graph'.nodes[started.position]? = some node') {job' : Job}
    (isJob' : job' = (config.fullPlan graph').job node' started)
    (known' : ∀ job ∈ jobs' ++ [job'], job ∈ all)
    (gives : ∀ runs, ∃ artifacts, Workshop.produce runs job' = .ok artifacts)
    (renewing : Renewing graph' changed jobs last opened'.store jobs' now workshop'.store)
    {after : Workshop} {result : Except TaskError Materialized}
    (done : workshop'.materialize job' started.mode = (after, result)) :
    Renewing graph' changed jobs last opened'.store (jobs' ++ [job'])
      (now.complete (config.fullPlan graph') started.position result) after.store := by
  have plans' : config.Plans graph' (config.fullPlan graph') := .full
  have sound' := plans'.sound built'
  have handedOut := (session.complete_path.reasoned sound').handedOut started running
  have inputs := handedOut.hasInputs isNode'
  rw [handedOut.job_eq isNode'] at isJob'
  have mode : started.mode = .normal := by
    have takesPart := handedOut.takesPart
    rw [RunConfig.mode?_fullPlan, looks] at takesPart
    split at takesPart
    · exact (Option.some.inj takesPart).symm
    · cases takesPart
  rw [mode] at done
  by_cases reached : graph'.Affected changed started.position
  · have fresh := session.fresh_of_affected built built' deterministic' revises collisionless left
      known (fun job member => known' job (List.mem_append_left _ member)) renewing isNode' inputs
      isJob' (known' job' (List.mem_append_right _ (.head _))) reached
    obtain ⟨artifacts, produced⟩ := gives workshop'.executed.length
    have place : job'.fingerprint = job'.fingerprint.forStorage job'.task.determinism
        workshop'.executed.length := by
      rw [isJob', (config.fullPlan graph').deterministic_jobOf deterministic' isNode' _]
      rfl
    rw [session.materialize_of_affected built' deterministic' collisionless left running isNode'
      isJob' known' renewing fresh, Workshop.recompute_of_ok false place produced] at done
    cases done
    refine renewing.complete running (fun before => .again reached rfl fun old isOld same => ?_)
      fun write member => ⟨reached, Job.key_of_mem_writes member, fresh⟩
    exact fresh old isOld (Option.some.inj same)
  · obtain ⟨old, wasHere, fingerprint, served⟩ := renewing.materialize_of_spared deterministic'
      revises collisionless left isNode' inputs isJob' known' reached
    rw [served] at done
    cases done
    have ends (before : TaskReport) : Rerun graph' changed jobs last started.position
        (before.finished (.ok ⟨job'.fingerprint, old.outputs, .cache, false⟩)) :=
      .kept reached wasHere rfl fingerprint.symm rfl
    have nothing : ∀ write ∈ ([] : List Write), graph'.Affected changed started.position ∧
        (∃ spec ∈ job'.task.outputs, write.key = job'.key job'.fingerprint spec) ∧
        ∀ old ∈ jobs, job'.fingerprint ≠ old.fingerprint := nofun
    exact renewing.complete running ends nothing

/-- The second run goes as it should at every moment. -/
theorem Session.renewing
    (session : Session (config.fullPlan graph') alone opened' events' jobs' now workshop')
    (looks : config.ignoreCache = false) (known' : ∀ job ∈ jobs', job ∈ all)
    (gives : ∀ job ∈ jobs', ∀ runs, ∃ artifacts, Workshop.produce runs job = .ok artifacts) :
    Renewing graph' changed jobs last opened'.store jobs' now workshop'.store := by
  have plans' : config.Plans graph' (config.fullPlan graph') := .full
  have sound' := plans'.sound built'
  induction session with
  | start =>
    refine ⟨fun {position report} here ended => ?_, rfl, [], rfl, nofun⟩
    have pending := state?_start sound' position
    rw [Coordinator.state?, here, Option.map_some] at pending
    obtain ⟨_, _, pending⟩ := Option.map_eq_some_iff.mp pending.symm
    rw [← pending] at ended
    cases ended
  | @scan events' jobs' now next workshop' event session move ih =>
    have renewing := ih known' gives
    refine ⟨fun {position report} here ended => ?_, ?_, renewing.wrote⟩
    · rw [move.report?] at here
      split at here
      · obtain ⟨before, _, rfl⟩ := Option.map_eq_some_iff.mp here
        cases move with
        | start => cases ended
        | finish _ admitted => exact admitted.elim
        | abort _ _ _ doomed =>
          -- no producer is lost and no stage is stopped, so nothing is abandoned
          rcases verdict_abort doomed with
            ⟨cause, _, ⟨state, found, terminal, failed⟩, _⟩ | ⟨none, _⟩
          · rw [Coordinator.state?, Option.map_eq_some_iff] at found
            obtain ⟨report, found, rfl⟩ := found
            cases renewing.ended found terminal with
            | again _ succeeded => rw [succeeded] at failed; cases failed
            | kept _ _ skipped => rw [skipped] at failed; cases failed
          · rw [renewing.stopped] at none
            cases none
      · exact renewing.ended here ended
    · cases move with
      | start | abort => exact renewing.stopped
      | finish _ admitted => exact admitted.elim
  | other _ happens => exact happens.elim
  | finish session running isNode' done ih =>
    have renewing := ih (fun job member => known' job (List.mem_append_left _ member))
      fun job member => gives job (List.mem_append_left _ member)
    exact session.renewing_finish built built' deterministic' revises collisionless left known looks
      running isNode' rfl known' (gives _ (List.mem_append_right _ (.head _))) renewing done

end

end

/-- A graph of deterministic tasks is run on an empty store and succeeds, some of its tasks are
changed, and it is run again on that store, in whatever order tasks come back. Then the tasks that
the change reaches succeed, all others are skipped, and these report what they reported in the first
run. If no task is changed, all are skipped and the store stays as it is. -/
theorem rerun_of_sessions {config : RunConfig} {graph graph' : Graph} {changed : Set TaskId}
    (built : graph.Built) (built' : graph'.Built) (deterministic : graph.Deterministic)
    (deterministic' : graph'.Deterministic) (revises : graph.Revises changed graph')
    (looks : config.ignoreCache = false) {opened closed opened' closed' : Workshop}
    {events events' : List Event} {jobs jobs' : List Job} {last last' : Coordinator}
    (empty : opened.store = .empty)
    (first : Session (config.fullPlan graph) alone opened events jobs last closed)
    (exits : last.Exits (config.fullPlan graph)) (successful : last.result.successful = true)
    (store : opened'.store = closed.store)
    (second : Session (config.fullPlan graph') alone opened' events' jobs' last' closed')
    (exits' : last'.Exits (config.fullPlan graph'))
    (gives : ∀ job ∈ jobs', ∀ runs, ∃ artifacts, Workshop.produce runs job = .ok artifacts)
    (collisionless : Collisionless {job | job ∈ jobs ∨ job ∈ jobs'}) :
    (∀ {position : Nat} {node' : TaskNode}, graph'.nodes[position]? = some node' →
      ∃ old report, last.result.report? node'.id = some old ∧
        last'.result.report? node'.id = some report ∧
        (report.state = .succeeded ↔ graph'.Affected changed position) ∧
        (report.state = .skipped ↔ ¬graph'.Affected changed position) ∧
        (report.state = .skipped →
          report.fingerprint = old.fingerprint ∧ report.outputs = old.outputs)) ∧
      ((∀ node ∈ graph.nodes, node.id ∉ changed) →
        (∀ report ∈ last'.result.tasks, report.state = .skipped) ∧
          closed'.store = closed.store) := by
  have plans : config.Plans graph (config.fullPlan graph) := .full
  have plans' : config.Plans graph' (config.fullPlan graph') := .full
  have sound := plans.sound built
  have sound' := plans'.sound built'
  have coherent' := second.path.coherent sound'
  have left := first.left built deterministic exits successful empty collisionless fun _ => .inl
  rw [← store] at left
  have renewing := second.renewing built built' deterministic' revises collisionless left
    (fun _ => .inl) looks (fun _ => .inr) gives
  have final := final_of_exits sound' coherent' exits'
  constructor
  · intro position node' isNode'
    obtain ⟨node, isNode, revised⟩ := revises.getElem? isNode'
    obtain ⟨old, wasHere, _⟩ := left.reported isNode
    obtain ⟨report, here, ended⟩ := final.report (RunConfig.takesPart_fullPlan isNode')
    refine ⟨old, report, ?_, ?_, ?_⟩
    · rw [revised.id, report?_result sound (first.path.coherent sound)
        (first.complete_path.reasoned sound) isNode]
      exact wasHere
    · rw [report?_result sound' coherent' (second.complete_path.reasoned sound') isNode']
      exact here
    · cases renewing.ended here ended with
      | again reached succeeded => simp [succeeded, reached]
      | kept spared same skipped fingerprint outputs =>
        cases wasHere.symm.trans same
        simp [skipped, spared, fingerprint, outputs]
  · intro unchanged
    have spared : ∀ position, ¬graph'.Affected changed position := by
      rintro position ⟨source, node', isNode', isChanged, _⟩
      obtain ⟨node, isNode, revised⟩ := revises.getElem? isNode'
      rw [revised.id] at isChanged
      exact unchanged node (List.mem_of_getElem? isNode) isChanged
    refine ⟨fun report member => ?_, ?_⟩
    · obtain ⟨position, here⟩ := mem_result.mp member
      obtain ⟨node', isNode'⟩ := coherent'.isNode sound' here
      obtain ⟨_, here', ended⟩ := final.report (RunConfig.takesPart_fullPlan isNode')
      cases here.symm.trans here'
      cases renewing.ended here ended with
      | again reached => exact absurd reached (spared position)
      | kept _ _ skipped => exact skipped
    · obtain ⟨writes, same, keys⟩ := renewing.wrote
      have none : writes = [] := by
        rw [List.eq_nil_iff_forall_not_mem]
        intro write member
        obtain ⟨⟨position, reached⟩, _⟩ := keys write member
        exact spared position reached
      rw [same, none, store]
      rfl

/-- Whether a run was successful does not depend on the order in which reports are listed. -/
theorem Coordinator.successful_result (coordinator : Coordinator) :
    coordinator.result.successful =
      (coordinator.reports.filterMap id).all (·.state.isSuccess) :=
  (List.mergeSort_perm ..).all_eq

/-- Two tasks that read nothing, the first of them in some version. -/
def blobGraph (version : String) : Graph where
  stages := ["in"]
  nodes := [⟨⟨"in", "n"⟩, 0, blobTask "n" version fun _ => .ok [.blob ⟨"n", [7]⟩], []⟩,
    ⟨⟨"in", "m"⟩, 0, blobTask "m" "1" fun _ => .ok [.blob ⟨"m", [8]⟩], []⟩]

theorem built_blobGraph (version : String) : (blobGraph version).Built := by
  have stages := @Graph.Built.addStage _ _ "in" .empty rfl
  have first := @Graph.Built.add _ _ "in"
    (blobTask "n" version fun _ => .ok [.blob ⟨"n", [7]⟩]) stages rfl
  exact @Graph.Built.add _ _ "in" (blobTask "m" "1" fun _ => .ok [.blob ⟨"m", [8]⟩]) first rfl

theorem deterministic_blobGraph (version : String) : (blobGraph version).Deterministic := by
  intro node member
  rcases List.mem_cons.mp member with rfl | member
  · rfl
  · rw [List.mem_singleton.mp member]
    rfl

theorem revises_blobGraph :
    Graph.Revises {⟨"in", "n"⟩} (blobGraph "1") (blobGraph "2") := by
  refine ⟨rfl, .cons ⟨rfl, rfl, rfl, rfl, rfl, ?_⟩ (.cons ⟨rfl, rfl, rfl, rfl, rfl, ?_⟩ .nil)⟩
  · simp [blobTask]
  · simp [blobTask]

/-- The jobs of `blobGraph`. -/
theorem job_of_blobGraph {version : String} {opened closed : Workshop} {events : List Event}
    {jobs : List Job} {last : Coordinator}
    (session : Session (RunConfig.fullPlan {} (blobGraph version)) alone opened events jobs last
      closed) {job : Job} (member : job ∈ jobs) :
    job = blobJob "n" version (fun _ => .ok [.blob ⟨"n", [7]⟩]) ∨
      job = blobJob "m" "1" (fun _ => .ok [.blob ⟨"m", [8]⟩]) := by
  have plans : ({} : RunConfig).Plans (blobGraph version) _ := .full
  obtain ⟨node, isNode, reports, rfl⟩ :=
    session.mem_jobs (plans.sound (built_blobGraph version)) member
  rcases List.mem_cons.mp isNode with rfl | isNode
  · exact .inl rfl
  · cases List.mem_singleton.mp isNode
    exact .inr rfl

/-- After the first task got another version, it runs again, and the other one is skipped. -/
theorem rerun_blobGraph :
    ∃ events jobs last closed events' jobs' last' closed',
      Session (RunConfig.fullPlan {} (blobGraph "1")) alone {} events jobs last closed ∧
      RunConfig.run {} (blobGraph "1") {} = (last.result, closed) ∧
      last.result.successful = true ∧
      Session (RunConfig.fullPlan {} (blobGraph "2")) alone closed events' jobs' last' closed' ∧
      RunConfig.run {} (blobGraph "2") closed = (last'.result, closed') ∧
      Collisionless {job | job ∈ jobs ∨ job ∈ jobs'} ∧
      (last'.result.report? ⟨"in", "n"⟩).map (·.state) = some .succeeded ∧
      (last'.result.report? ⟨"in", "m"⟩).map (·.state) = some .skipped := by
  have plans (version : String) : ({} : RunConfig).Plans (blobGraph version) _ := .full
  have sound (version : String) := (plans version).sound (built_blobGraph version)
  obtain ⟨events, jobs, last, closed, first, exits, ran⟩ := RunPlan.run_session (sound "1") alone {}
  obtain ⟨events', jobs', last', closed', second, exits', ran'⟩ :=
    RunPlan.run_session (sound "2") alone closed
  have successful : last.result.successful = true := by
    have same := congrArg (·.1.successful) ran
    rw [← same, RunPlan.run, successful_result]
    decide +kernel
  have gives : ∀ job ∈ jobs', ∀ runs, ∃ artifacts, Workshop.produce runs job = .ok artifacts := by
    intro job member runs
    rcases job_of_blobGraph second member with rfl | rfl
    · exact ⟨_, rfl⟩
    · exact ⟨_, rfl⟩
  have collisionless : Collisionless {job | job ∈ jobs ∨ job ∈ jobs'} := by
    refine collisionless_blobJob ?_
    rintro job (member | member)
    · rcases job_of_blobGraph first member with rfl | rfl
      · exact ⟨("n", "1"), .head _, _, rfl⟩
      · exact ⟨("m", "1"), .tail _ (.tail _ (.head _)), _, rfl⟩
    · rcases job_of_blobGraph second member with rfl | rfl
      · exact ⟨("n", "2"), .tail _ (.head _), _, rfl⟩
      · exact ⟨("m", "1"), .tail _ (.tail _ (.head _)), _, rfl⟩
  obtain ⟨rerun, _⟩ := rerun_of_sessions (built_blobGraph "1") (built_blobGraph "2")
    (deterministic_blobGraph "1") (deterministic_blobGraph "2") revises_blobGraph rfl rfl first
    exits successful rfl second exits' gives collisionless
  refine ⟨events, jobs, last, closed, events', jobs', last', closed', first, ran, successful,
    second, ran', collisionless, ?_, ?_⟩
  · obtain ⟨_, report, _, here, again, _⟩ := @rerun 0 _ rfl
    have reached : (blobGraph "2").Affected {⟨"in", "n"⟩} 0 := ⟨0, _, rfl, rfl, .inl rfl⟩
    rw [show last'.result.report? ⟨"in", "n"⟩ = some report from here, Option.map_some,
      again.mpr reached]
  · obtain ⟨_, report, _, here, _, kept, _⟩ := @rerun 1 _ rfl
    have spared : ¬(blobGraph "2").Affected {⟨"in", "n"⟩} 1 := by
      rw [Graph.affected_iff rfl]
      rintro (isChanged | ⟨producer, none, _⟩)
      · exact absurd (Set.mem_singleton_iff.mp isChanged) (by decide)
      · cases none
    rw [show last'.result.report? ⟨"in", "m"⟩ = some report from here, Option.map_some,
      kept.mpr spared]

end TablePipeline
