import TablePipeline.Proofs.Run.Addresses

/-! # Selected runs

A selected run has its targets run anew and takes all that they read from the cache. What it
reports, runs and writes follows from the modes of its plan: a task that is run anew has its body
run when it comes back, whatever the store holds, and one that is taken from the cache leaves the
workshop as it is. A target that does not come back was abandoned, and abandoned tasks lead to a
task that failed or to a stage that was stopped.
-/

namespace TablePipeline

/-! ## How the modes differ -/

namespace Workshop

variable {workshop after : Workshop} {job : Job} {result : Except TaskError Materialized}

/-- A job that is taken from the cache leaves the workshop as it is; it is served, or it is not
there. -/
theorem materialize_cacheOnly (done : workshop.materialize job .cacheOnly = (after, result)) :
    after = workshop ∧ (result = .error (.notMaterialized job.id) ∨
      ∃ outputs, result = .ok ⟨job.fingerprint, outputs, .cache, false⟩) := by
  obtain ⟨answer, found⟩ :=
    workshop.store.exists_cached job.namespaceName job.fingerprint job.task.outputs
  unfold materialize at done
  dsimp only at done
  rw [found] at done
  cases answer with
  | miss =>
    cases done
    exact ⟨rfl, .inl rfl⟩
  | hit outputs =>
    cases done
    exact ⟨rfl, .inr ⟨outputs, rfl⟩⟩

/-- A job that is run anew has its body run, whatever the store holds. -/
theorem executed_of_recompute (done : workshop.materialize job .recompute = (after, result)) :
    after.executed = workshop.executed ++ [job.id] := by
  have anew : workshop.recompute job false = (after, result) := by
    rw [← done]
    unfold materialize
    cases job.task.determinism <;> rfl
  cases produced : produce workshop.executed.length job with
  | error error =>
    cases (recompute_of_error false produced).symm.trans anew
    rfl
  | ok artifacts =>
    cases (recompute_of_ok false rfl produced).symm.trans anew
    rfl

end Workshop

/-! ## What a session runs and writes -/

namespace RunPlan

/-- The task whose body runs, if what happens is that a task comes back that is run anew. -/
def ran? (plan : RunPlan) : Event → Option TaskId
  | .finish position _ =>
    if plan.mode? position = some .recompute then plan.graph.nodes[position]?.map (·.id) else none
  | _ => none

/-- Does a job belong to a task that is run anew? -/
def Anew (plan : RunPlan) (job : Job) : Prop :=
  ∃ position node, plan.mode? position = some .recompute ∧
    plan.graph.nodes[position]? = some node ∧ job.id = node.id

/-- A task that is taken from the cache is served, or it is not there. -/
def serves (plan : RunPlan) : Allowed := fun position mode _ result =>
  mode = .cacheOnly → ∀ node, plan.graph.nodes[position]? = some node →
    result = .error (.notMaterialized node.id) ∨
      ∃ materialized, result = .ok materialized ∧ materialized.source = .cache

variable {plan : RunPlan}

theorem ran?_finish {position : Nat} {node : TaskNode} {result : Except TaskError Materialized}
    (isNode : plan.graph.nodes[position]? = some node) :
    plan.ran? (.finish position result) =
      if plan.mode? position = some .recompute then some node.id else none := by
  rw [ran?, isNode]
  rfl

/-- The body of a task runs as often as the task comes back, if it is run anew, and never
otherwise. -/
theorem count_ran (formed : plan.graph.WellFormed) {position : Nat} {node : TaskNode}
    (isNode : plan.graph.nodes[position]? = some node) (events : List Event) :
    (events.filterMap plan.ran?).count node.id =
      if plan.mode? position = some .recompute then Event.finishesOf position events else 0 := by
  have same {event : Event} : plan.ran? event = some node.id ↔
      plan.mode? position = some .recompute ∧ event.isFinish = true ∧
        event.position = position := by
    cases event with
    | start => simp [ran?, Event.isFinish]
    | abort => simp [ran?, Event.isFinish]
    | finish other result =>
      constructor
      · intro ran
        obtain ⟨anew, ran⟩ := Option.ite_none_right_eq_some.mp ran
        obtain ⟨found, isFound, named⟩ := Option.map_eq_some_iff.mp ran
        cases formed.position_inj isFound isNode named
        exact ⟨anew, rfl, rfl⟩
      · rintro ⟨anew, _, rfl⟩
        exact (ran?_finish isNode).trans (if_pos anew)
  rw [List.count_filterMap, Event.finishesOf]
  split
  · rename_i anew
    exact List.countP_congr fun event _ => by simp [same, anew]
  · rename_i notAnew
    exact List.countP_eq_zero.mpr fun event _ => by simp [same, notAnew]

end RunPlan

namespace Session

open Coordinator

variable {plan : RunPlan} {others : Interference} {opened workshop : Workshop}
  {events : List Event} {jobs : List Job} {coordinator : Coordinator}

theorem mode_of_running (session : Session plan others opened events jobs coordinator workshop)
    (sound : plan.Sound) {started : StartedTask} (running : started ∈ coordinator.running) :
    plan.mode? started.position = some started.mode := by
  have path : Path plan (allows plan fun _ _ _ _ => True) plan.start events coordinator :=
    session.path
  exact ((path.reasoned sound).handedOut started running).takesPart

/-- The bodies that run are those of the tasks that are run anew and come back. -/
theorem executed (session : Session plan others opened events jobs coordinator workshop)
    (sound : plan.Sound) (notNormal : ∀ {position}, plan.mode? position ≠ some .normal) :
    workshop.executed = opened.executed ++ events.filterMap plan.ran? := by
  induction session with
  | start => exact (List.append_nil _).symm
  | @scan _ _ _ _ _ event _ move ih =>
    have quiet : plan.ran? event = none := by
      cases move with
      | start | abort => rfl
      | finish _ admitted => exact admitted.elim
    rw [List.filterMap_append, ih]
    simp [quiet]
  | other _ _ ih => exact ih
  | @finish _ _ coordinator workshop after started node result session running isNode done ih =>
    have isMode := session.mode_of_running sound running
    rw [List.filterMap_append, ← List.append_assoc, ← ih]
    cases mode : started.mode with
    | normal => exact absurd (isMode.trans (congrArg some mode)) notNormal
    | recompute =>
      rw [mode] at done isMode
      simp [RunPlan.ran?_finish isNode, isMode, Workshop.executed_of_recompute done, RunPlan.job]
    | cacheOnly =>
      rw [mode] at done isMode
      simp [RunPlan.ran?_finish isNode, isMode, (Workshop.materialize_cacheOnly done).1]

/-- Only tasks that are run anew have anything written for them. -/
theorem wrote (session : Session plan alone opened events jobs coordinator workshop)
    (sound : plan.Sound) (notNormal : ∀ {position}, plan.mode? position ≠ some .normal) :
    ∃ writes, workshop.store = opened.store.putEach writes ∧
      ∀ write ∈ writes, ∃ job ∈ jobs, plan.Anew job ∧ job.Keys Set.univ write.key := by
  induction session with
  | start => exact ⟨[], rfl, nofun⟩
  | scan _ _ ih => exact ih
  | other _ happens => exact happens.elim
  | @finish _ jobs coordinator workshop after started node result session running isNode done ih =>
    obtain ⟨writes, same, each⟩ := ih
    have isMode := session.mode_of_running sound running
    have earlier : ∀ write ∈ writes, ∃ job ∈ jobs ++ [plan.job node started],
        plan.Anew job ∧ job.Keys Set.univ write.key := fun write member => by
      obtain ⟨job, isJob, anew⟩ := each write member
      exact ⟨job, List.mem_append_left _ isJob, anew⟩
    cases mode : started.mode with
    | normal => exact absurd (isMode.trans (congrArg some mode)) notNormal
    | cacheOnly =>
      rw [mode] at done
      rw [(Workshop.materialize_cacheOnly done).1]
      exact ⟨writes, same, earlier⟩
    | recompute =>
      have distinct := sound.formed.distinct (List.mem_of_getElem? isNode)
      obtain ⟨more, stored, _, _, keys⟩ :=
        (Workshop.outcome_of_materialize done).writes distinct (fun nonce _ _ => Set.mem_univ nonce)
          started.position
      refine ⟨writes ++ more, ?_, fun write member => ?_⟩
      · rw [stored, same, Store.putEach_append]
      · rcases List.mem_append.mp member with old | new
        · exact earlier write old
        · exact ⟨_, List.mem_append_right _ (.head _),
            ⟨started.position, node, isMode.trans (congrArg some mode), isNode, rfl⟩,
            keys write new⟩

/-- What is taken from the cache is served, or it is not there. -/
theorem serves_path (session : Session plan others opened events jobs coordinator workshop) :
    Path plan (allows plan plan.serves) plan.start events coordinator := by
  induction session with
  | start => exact .refl
  | scan _ move ih => exact ih.tail (move.imp fun not => not.elim)
  | other _ _ ih => exact ih
  | finish _ running isNode done ih =>
    refine ih.tail (.finish running fun cacheOnly other isOther => ?_)
    cases isNode.symm.trans isOther
    rw [cacheOnly] at done
    rcases (Workshop.materialize_cacheOnly done).2 with failed | ⟨outputs, served⟩
    · exact .inl failed
    · exact .inr ⟨_, served, rfl⟩

end Session

/-! ## What keeps a target from being run -/

namespace Coordinator

variable {plan : RunPlan} {allowed : Allowed} {admits : Admits} {first last : Coordinator}
  {event : Event} {events : List Event}

/-- In a stage that was stopped a task failed. -/
theorem Path.failed_of_stopped (sound : plan.Sound)
    (path : Path plan admits plan.start events last) {stage : Nat}
    (inStopped : stage ∈ last.stopped) :
    plan.stopStageOnFailure = true ∧
      ∃ position, plan.graph.stageOf position = stage ∧
        last.state? position = some .failed := by
  induction path with
  | refl => cases inStopped
  | tail path move ih =>
    have coherent := path.coherent sound
    rcases move.mem_stopped.mp inStopped with earlier | ⟨stops, failed, ofStage⟩
    · obtain ⟨stops, position, ofStage, failed⟩ := ih earlier
      refine ⟨stops, position, ofStage, ?_⟩
      rcases move.change coherent position with same | ⟨_, _, here, _, change⟩
      · exact same.trans failed
      · cases here.symm.trans failed
        cases change
    · refine ⟨stops, _, ofStage, ?_⟩
      rw [move.state? coherent, if_pos rfl, failed]

/-- An abandoned task reads, through any number of tasks, one that failed, or it or something that
it reads is in a stage that was stopped. -/
theorem Reasoned.cause_of_aborted (reasoned : last.Reasoned plan allowed) (sound : plan.Sound)
    (coherent : last.Coherent plan) {position : Nat}
    (aborted : last.state? position = some .aborted) :
    (∃ source, plan.graph.Reads position source ∧ last.state? source = some .failed) ∨
      ∃ source, (source = position ∨ plan.graph.Reads position source) ∧
        plan.graph.stageOf source ∈ last.stopped := by
  induction position using Nat.strongRecOn with
  | ind position earlier =>
    obtain ⟨report, here, state⟩ := Option.map_eq_some_iff.mp aborted
    obtain ⟨node, isNode⟩ := coherent.isNode sound here
    cases reasoned.explained isNode here with
    | pending => cases state
    | running => cases state
    | stopped inStopped =>
      rw [← Graph.stageOf_eq isNode] at inStopped
      exact .inr ⟨position, .inl rfl, inStopped⟩
    | @ended mode result =>
      have back := TaskState.cameBack_ofResult result
      rw [← TaskReport.state_finished node.fresh, state] at back
      cases back
    | @aborted cause source isProducer lost =>
      have reads := Graph.mem_producersOf.mpr ⟨node, isNode, isProducer⟩
      rcases lost_iff.mp lost with failed | aborted
      · exact .inl ⟨cause, .single reads, failed⟩
      · rcases earlier cause (sound.formed.producer_lt reads) aborted with
          ⟨source, path, failed⟩ | ⟨source, path, inStopped⟩
        · exact .inl ⟨source, path.head reads, failed⟩
        · refine .inr ⟨source, .inr ?_, inStopped⟩
          rcases path with rfl | path
          · exact .single reads
          · exact path.head reads

end Coordinator

/-! ## What a selected run comes to -/

namespace RunResult

/-- Is a task reported in a state? -/
def Reports (result : RunResult) (graph : Graph) (position : Nat) (state : TaskState) : Prop :=
  ∃ node report, graph.nodes[position]? = some node ∧ result.report? node.id = some report ∧
    report.state = state

/-- Was a stage stopped, as one of its tasks failed? -/
def Stopped (result : RunResult) (config : RunConfig) (graph : Graph) (stage : Nat) : Prop :=
  config.stopStageOnFailure = true ∧
    ∃ position, graph.stageOf position = stage ∧ result.Reports graph position .failed

/-- What may keep a target from being run. -/
inductive Hinders (result : RunResult) (config : RunConfig) (graph : Graph) (position : Nat) :
    Prop where
  | failure {source : Nat} (reads : graph.Reads position source)
      (failed : result.Reports graph source .failed) : Hinders result config graph position
  | stop {source : Nat} (reads : source = position ∨ graph.Reads position source)
      (stopped : result.Stopped config graph (graph.stageOf source)) :
      Hinders result config graph position

end RunResult

/-- What a run of some targets comes to: it touches only what was asked. -/
structure Selected (config : RunConfig) (graph : Graph) (targets : List TaskId)
    (opened closed : Workshop) (jobs : List Job) (result : RunResult) : Prop where
  /-- The targets and all that they read are reported. -/
  reported : ∀ position, (∃ state, result.Reports graph position state) ↔
    graph.Needs targets position
  /-- Nothing else is reported, and nothing twice. -/
  inGraph : ∀ report ∈ result.tasks, ∃ node ∈ graph.nodes, node.id = report.id
  distinct : (result.tasks.map (·.id)).Nodup
  /-- All that a reported task reads is reported. -/
  producers : ∀ {position producer : Nat} {state : TaskState},
    result.Reports graph position state → producer ∈ graph.producersOf position →
    ∃ state, result.Reports graph producer state
  /-- Only bodies of targets run, each once unless the target is hindered. -/
  executed : ∃ ran, closed.executed = opened.executed ++ ran ∧
    (∀ id ∈ ran, id ∈ targets ∧ ran.count id = 1) ∧
    ∀ {position : Nat} {node : TaskNode}, graph.nodes[position]? = some node →
      node.id ∈ targets → ¬result.Hinders config graph position → ran.count node.id = 1
  /-- Only outputs of targets are written. -/
  writes : ∃ writes, closed.store = opened.store.putEach writes ∧
    ∀ write ∈ writes, ∃ job ∈ jobs, job.id ∈ targets ∧ job.Keys Set.univ write.key
  /-- All other tasks are served, or they are not there, or they are never handed out. -/
  cached : ∀ {position : Nat} {node : TaskNode} {report : TaskReport},
    graph.nodes[position]? = some node → node.id ∉ targets →
    result.report? node.id = some report →
    report.state = .skipped ∨
      report.state = .failed ∧ report.error = some (.notMaterialized node.id) ∨
      report.state = .aborted

namespace Coordinator

variable {config : RunConfig} {plan : RunPlan} {allowed : Allowed} {admits : Admits}
  {last : Coordinator} {events : List Event}

/-- A result reports each task in the state that the coordinator knows. -/
theorem reports_result (sound : plan.Sound) (coherent : last.Coherent plan)
    (reasoned : last.Reasoned plan allowed) {position : Nat} {state : TaskState} :
    last.result.Reports plan.graph position state ↔ last.state? position = some state := by
  constructor
  · rintro ⟨node, report, isNode, here, rfl⟩
    rw [report?_result sound coherent reasoned isNode] at here
    rw [state?, here]
    rfl
  · intro found
    obtain ⟨report, here, state⟩ := Option.map_eq_some_iff.mp found
    obtain ⟨node, isNode⟩ := coherent.isNode sound here
    exact ⟨node, report, isNode, (report?_result sound coherent reasoned isNode).trans here, state⟩

/-- No task is reported twice. -/
theorem distinct_result (sound : plan.Sound) (coherent : last.Coherent plan)
    (reasoned : last.Reasoned plan allowed) : (last.result.tasks.map (·.id)).Nodup := by
  have sorted : last.result.tasks.Perm (last.reports.filterMap id) := List.mergeSort_perm ..
  rw [(sorted.map (·.id)).nodup_iff, List.Nodup, List.pairwise_map, List.pairwise_filterMap,
    List.pairwise_iff_getElem]
  intro place place' inside inside' before report here report' here' same
  have found {place : Nat} {report : TaskReport} (inside : place < last.reports.length)
      (here : id last.reports[place] = some report) : last.report? place = some report := by
    rw [Coordinator.report?, List.getElem?_eq_getElem inside]
    exact here
  obtain ⟨node, isNode⟩ := coherent.isNode sound (found inside here)
  obtain ⟨node', isNode'⟩ := coherent.isNode sound (found inside' here')
  have named := (reasoned.explained isNode (found inside here)).id_eq
  have named' := (reasoned.explained isNode' (found inside' here')).id_eq
  have ids : node.id = node'.id := named.symm.trans (same.trans named')
  exact absurd (sound.formed.position_inj isNode isNode' ids) before.ne

/-- A task that is abandoned is hindered. -/
theorem hinders_of_aborted (sound : plan.Sound)
    (stops : plan.stopStageOnFailure = config.stopStageOnFailure)
    (path : Path plan (allows plan allowed) plan.start events last) {position : Nat}
    (aborted : last.state? position = some .aborted) :
    last.result.Hinders config plan.graph position := by
  have coherent := path.coherent sound
  have reasoned := path.reasoned sound
  rcases reasoned.cause_of_aborted sound coherent aborted with
    ⟨source, reads, failed⟩ | ⟨source, reads, inStopped⟩
  · exact .failure reads ((reports_result sound coherent reasoned).mpr failed)
  · obtain ⟨isSet, other, ofStage, failed⟩ := path.failed_of_stopped sound inStopped
    exact .stop reads
      ⟨stops.symm.trans isSet, other, ofStage, (reports_result sound coherent reasoned).mpr failed⟩

/-- A task that is not run anew was served, or it was not there, or it was never handed out. -/
theorem Reasoned.cached (reasoned : last.Reasoned plan plan.serves) {position : Nat}
    {node : TaskNode} {report : TaskReport} (isNode : plan.graph.nodes[position]? = some node)
    (cacheOnly : plan.mode? position = some .cacheOnly)
    (here : last.report? position = some report) (ended : report.state.isTerminal = true) :
    report.state = .skipped ∨
      report.state = .failed ∧ report.error = some (.notMaterialized node.id) ∨
      report.state = .aborted := by
  cases reasoned.explained isNode here with
  | pending => cases ended
  | running => cases ended
  | aborted => exact .inr (.inr rfl)
  | stopped => exact .inr (.inr rfl)
  | ended _ isMode allows =>
    cases isMode.symm.trans cacheOnly
    rcases allows rfl node isNode with rfl | ⟨materialized, rfl, source⟩
    · exact .inr (.inl ⟨rfl, rfl⟩)
    · refine .inl ?_
      rw [TaskReport.state_finished, TaskState.ofResult, source]

/-- A task that came back did so once. -/
theorem finishesOf_eq_one (sound : plan.Sound) (path : Path plan admits plan.start events last)
    {position : Nat} {state : TaskState} (here : last.state? position = some state)
    (ended : state.isTerminal = true) (notAborted : state ≠ .aborted) :
    Event.finishesOf position events = 1 := by
  rw [(path.recorded sound position).2, here]
  cases state with
  | pending | running => cases ended
  | aborted => exact absurd rfl notAborted
  | skipped | succeeded | failed => rfl

end Coordinator

namespace Session

open Coordinator

variable {config : RunConfig} {graph : Graph} {targets : List TaskId} {plan : RunPlan}
  {opened closed : Workshop} {events : List Event} {jobs : List Job} {last : Coordinator}

/-- The bodies that run are those of targets, each once unless the target is hindered. -/
theorem executed_targets (session : Session plan alone opened events jobs last closed)
    (sound : plan.Sound) (selects : RunConfig.Selects plan.graph targets plan)
    (stops : plan.stopStageOnFailure = config.stopStageOnFailure) (final : last.Final plan) :
    ∃ ran, closed.executed = opened.executed ++ ran ∧
      (∀ id ∈ ran, id ∈ targets ∧ ran.count id = 1) ∧
      ∀ {position : Nat} {node : TaskNode}, plan.graph.nodes[position]? = some node →
        node.id ∈ targets → ¬last.result.Hinders config plan.graph position →
        ran.count node.id = 1 := by
  have path := session.serves_path
  have recorded := path.recorded sound
  refine ⟨_, session.executed sound selects.notNormal, fun id member => ?_,
    fun {position node} isNode isTarget free => ?_⟩
  · obtain ⟨event, _, ran⟩ := List.mem_filterMap.mp member
    cases event with
    | start | abort => cases ran
    | finish position result =>
      obtain ⟨anew, ran⟩ := Option.ite_none_right_eq_some.mp ran
      obtain ⟨node, isNode, rfl⟩ := Option.map_eq_some_iff.mp ran
      obtain ⟨other, isOther, isTarget⟩ := selects.anew.mp anew
      cases isNode.symm.trans isOther
      refine ⟨isTarget, Nat.le_antisymm ?_ (List.count_pos_iff.mpr member)⟩
      rw [RunPlan.count_ran sound.formed isNode, if_pos anew, (recorded position).2]
      exact Bool.toNat_le _
  · have anew := selects.anew.mpr ⟨node, isNode, isTarget⟩
    obtain ⟨state, here, ended⟩ := final position (by rw [anew]; rfl)
    rw [RunPlan.count_ran sound.formed isNode, if_pos anew]
    refine finishesOf_eq_one sound path here ended ?_
    rintro rfl
    exact free (hinders_of_aborted sound stops path here)

/-- A session of the plan for some targets that goes on to the end touches only what was asked. -/
theorem selected (session : Session plan alone opened events jobs last closed)
    (built : graph.Built) (made : config.selectedPlan graph targets = .ok plan)
    (exits : last.Exits plan) :
    Selected config graph targets opened closed jobs last.result := by
  have sound := (RunConfig.Plans.selected made).sound built
  have selects := RunConfig.selects_of_selectedPlan built made
  obtain ⟨_, _, rfl, stops, _⟩ := RunConfig.selectedPlan_eq_ok made
  have path := session.serves_path
  have coherent := path.coherent sound
  have reasoned := path.reasoned sound
  have final := final_of_exits sound coherent exits
  have reported (position : Nat) : (∃ state, last.result.Reports plan.graph position state) ↔
      plan.graph.Needs targets position := by
    simp only [reports_result sound coherent reasoned]
    rw [← selects.takesPart, ← coherent.takesPart, Option.isSome_iff_exists]
  refine ⟨reported, fun report member => ?_, distinct_result sound coherent reasoned,
    fun {position producer state} here reads => ?_,
    session.executed_targets sound selects stops final, ?_,
    fun {position node report} isNode notTarget here => ?_⟩
  · obtain ⟨position, here⟩ := mem_result.mp member
    obtain ⟨node, isNode⟩ := coherent.isNode sound here
    exact ⟨node, List.mem_of_getElem? isNode, (reasoned.explained isNode here).id_eq.symm⟩
  · exact (reported producer).mpr (((reported position).mp ⟨state, here⟩).producer reads)
  · obtain ⟨writes, same, each⟩ := session.wrote sound selects.notNormal
    refine ⟨writes, same, fun write member => ?_⟩
    obtain ⟨job, isJob, ⟨position, node, anew, isNode, named⟩, isKey⟩ := each write member
    obtain ⟨other, isOther, isTarget⟩ := selects.anew.mp anew
    cases isNode.symm.trans isOther
    exact ⟨job, isJob, named ▸ isTarget, isKey⟩
  · rw [report?_result sound coherent reasoned isNode] at here
    have isState : last.state? position = some report.state := by
      rw [state?, here]
      rfl
    have takesPart : (plan.mode? position).isSome := by
      rw [← coherent.takesPart, isState]
      rfl
    obtain ⟨state, isFound, ended⟩ := final position takesPart
    cases isState.symm.trans isFound
    obtain ⟨mode, isMode⟩ := Option.isSome_iff_exists.mp takesPart
    refine reasoned.cached isNode ?_ here ended
    cases mode with
    | normal => exact absurd isMode selects.notNormal
    | cacheOnly => exact isMode
    | recompute =>
      obtain ⟨other, isOther, isTarget⟩ := selects.anew.mp isMode
      cases isNode.symm.trans isOther
      exact absurd isTarget notTarget

end Session

/-- A run of targets that are all in the graph touches only what was asked, in whatever order tasks
come back and whatever the store holds. A target that is not in the graph is an error, and nothing
runs. -/
theorem RunConfig.selected_of_targets {config : RunConfig} {graph : Graph} (built : graph.Built)
    (targets : List TaskId) :
    ((∀ id ∈ targets, ∃ node ∈ graph.nodes, node.id = id) →
      ∃ plan, config.selectedPlan graph targets = .ok plan ∧
        (∀ {opened closed : Workshop} {events : List Event} {jobs : List Job} {last : Coordinator},
          Session plan alone opened events jobs last closed → last.Exits plan →
          Selected config graph targets opened closed jobs last.result) ∧
        ∀ opened, ∃ events jobs last closed, Session plan alone opened events jobs last closed ∧
          last.Exits plan ∧
          config.runSelected graph targets opened = .ok (last.result, closed)) ∧
      ∀ {known rest : List TaskId} {id : TaskId}, targets = known ++ id :: rest →
        (∀ id ∈ known, ∃ node ∈ graph.nodes, node.id = id) →
        (∀ node ∈ graph.nodes, node.id ≠ id) →
        ∀ opened, config.runSelected graph targets opened = .error (.unknownTarget id) := by
  refine ⟨fun known => ?_, fun {known rest id} split before unknown opened => ?_⟩
  · obtain ⟨positions, found⟩ := Graph.exists_targetPositions known
    obtain ⟨plan, made⟩ : ∃ plan, config.selectedPlan graph targets = .ok plan := by
      rw [selectedPlan, found]
      exact ⟨_, rfl⟩
    refine ⟨plan, made, fun session exits => session.selected built made exits, fun opened => ?_⟩
    obtain ⟨events, jobs, last, closed, session, exits, ran⟩ :=
      RunPlan.run_session ((RunConfig.Plans.selected made).sound built) alone opened
    refine ⟨events, jobs, last, closed, session, exits, ?_⟩
    rw [runSelected, made, ← ran]
    rfl
  · rw [runSelected, selectedPlan, split, Graph.targetPositions_eq_error before unknown]
    rfl

/-- A task that fails, one that gives rows, one that cleans them, and one of a later stage that adds
them up. -/
def brokenTask : Task := blobTask "broken" "1" fun _ => .error (.failed "no rows")

@[inherit_doc brokenTask]
def rowsTask : Task := blobTask "rows" "1" fun _ => .ok [.blob ⟨"rows", [7]⟩]

@[inherit_doc brokenTask]
def cleanTask : Task :=
  { blobTask "clean" "1" fun _ => .ok [.blob ⟨"clean", [7]⟩] with inputs := rowsTask.refs "load" }

@[inherit_doc brokenTask]
def totalTask : Task :=
  { blobTask "total" "1" fun _ => .ok [.blob ⟨"total", [7]⟩] with inputs := cleanTask.refs "load" }

/-- What is reported was read and cleaned in the stage of a task that fails. -/
def strandedGraph : Graph where
  stages := ["load", "report"]
  nodes := [⟨⟨"load", "broken"⟩, 0, brokenTask, []⟩, ⟨⟨"load", "rows"⟩, 0, rowsTask, []⟩,
    ⟨⟨"load", "clean"⟩, 0, cleanTask, [1]⟩, ⟨⟨"report", "total"⟩, 1, totalTask, [2]⟩]

theorem built_strandedGraph : strandedGraph.Built := by
  have load := @Graph.Built.addStage _ _ "load" .empty rfl
  have stages := @Graph.Built.addStage _ _ "report" load rfl
  have broken := @Graph.Built.add _ _ "load" brokenTask stages rfl
  have rows := @Graph.Built.add _ _ "load" rowsTask broken rfl
  have clean := @Graph.Built.add _ _ "load" cleanTask rows rfl
  exact @Graph.Built.add _ _ "report" totalTask clean rfl

/-- A full run has run all bodies, and the store holds all outputs. The body of a target still runs
once more. -/
theorem selected_strandedGraph :
    ∃ opened closed jobs result, opened = (RunConfig.run {} strandedGraph {}).2 ∧
      RunConfig.runSelected {} strandedGraph [⟨"report", "total"⟩, ⟨"load", "rows"⟩] opened =
        .ok (result, closed) ∧
      Selected {} strandedGraph [⟨"report", "total"⟩, ⟨"load", "rows"⟩] opened closed jobs result ∧
      opened.store.writes = 3 ∧ opened.executed.count ⟨"load", "rows"⟩ = 1 ∧
      closed.executed.count ⟨"load", "rows"⟩ = 2 := by
  have known : ∀ id ∈ [TaskId.mk "report" "total", TaskId.mk "load" "rows"],
      ∃ node ∈ strandedGraph.nodes, node.id = id := by
    decide
  obtain ⟨plan, _, selected, runs⟩ :=
    (@RunConfig.selected_of_targets {} _ built_strandedGraph
      [⟨"report", "total"⟩, ⟨"load", "rows"⟩]).1 known
  obtain ⟨events, jobs, last, closed, session, exits, ran⟩ :=
    runs (RunConfig.run {} strandedGraph {}).2
  have once : (RunConfig.run {} strandedGraph {}).2.executed.count ⟨"load", "rows"⟩ = 1 := by
    decide +kernel
  have selected := selected session exits
  refine ⟨_, closed, jobs, last.result, rfl, ran, selected, by decide +kernel, once, ?_⟩
  obtain ⟨more, executed, _, each⟩ := selected.executed
  have again : more.count ⟨"load", "rows"⟩ = 1 := by
    refine @each 1 ⟨⟨"load", "rows"⟩, 0, rowsTask, []⟩ rfl (by decide) ?_
    have alone (source : Nat) : ¬strandedGraph.Reads 1 source := fun path => by
      obtain ⟨_, reads, _⟩ := Relation.TransGen.head'_iff.mp path
      cases reads
    rintro (⟨reads, _⟩ | ⟨_, stops, _⟩)
    · exact alone _ reads
    · cases stops
  rw [executed, List.count_append, once, again]

/-- The store holds all outputs; the last task is a target, its stage is not stopped, and nothing
that it reads fails. But the task that it reads is abandoned in a stage that is stopped, so the body
of the target does not run. -/
theorem not_executed_strandedGraph :
    let config : RunConfig := { stopStageOnFailure := true }
    let targets : List TaskId := [⟨"load", "broken"⟩, ⟨"load", "rows"⟩, ⟨"report", "total"⟩]
    let opened := (RunConfig.run {} strandedGraph {}).2
    ∃ result closed, config.runSelected strandedGraph targets opened = .ok (result, closed) ∧
      strandedGraph.IsTarget targets 3 ∧
      (∀ source, strandedGraph.Reads 3 source → ¬result.Reports strandedGraph source .failed) ∧
      ¬result.Stopped config strandedGraph (strandedGraph.stageOf 3) ∧
      closed.executed = opened.executed ++ [⟨"load", "broken"⟩, ⟨"load", "rows"⟩] := by
  intro config targets opened
  let plan : RunPlan :=
    ⟨strandedGraph, [some .recompute, some .recompute, some .cacheOnly, some .recompute], true,
      config.namespaceOf⟩
  let outcome := (plan.start.settle plan).drain plan 4 opened
  have made : config.selectedPlan strandedGraph targets = .ok plan := rfl
  have formed := built_strandedGraph.wellFormed
  have failures : ∀ report ∈ outcome.1.reports.filterMap id, report.state = .failed →
      report.id = ⟨"load", "broken"⟩ := by
    decide +kernel
  have isBroken {position : Nat}
      (failed : outcome.1.result.Reports strandedGraph position .failed) : position = 0 := by
    obtain ⟨node, report, isNode, here, state⟩ := failed
    have member := List.mem_of_find?_eq_some here
    rw [Coordinator.result, List.mem_mergeSort] at member
    have named : report.id = node.id := by simpa using List.find?_some here
    have first : strandedGraph.nodes[0]? = some ⟨⟨"load", "broken"⟩, 0, brokenTask, []⟩ := rfl
    exact formed.position_inj isNode first (named.symm.trans (failures report member state))
  refine ⟨outcome.1.result, outcome.2, ?_, ⟨_, rfl, by decide⟩, fun source path failed => ?_, ?_,
    by decide +kernel⟩
  · rw [RunConfig.runSelected, made]
    rfl
  · rw [isBroken failed] at path
    have isAncestor : 0 ∈ strandedGraph.ancestorPositions [3] :=
      (Graph.mem_ancestorPositions formed (by decide)).mpr ⟨by decide, 3, .head _, path⟩
    exact absurd isAncestor (by decide)
  · rintro ⟨_, position, ofStage, failed⟩
    rw [isBroken failed] at ofStage
    cases ofStage

end TablePipeline
