import TablePipeline.Proofs.Run.Settling

/-! # Why a report is what it is

Every report of a coordinator has an explanation in terms of the reports of the producers: a running
task has all its inputs, an abandoned one has a producer that ended without success or stands in a
stopped stage, and one that came back carries a result that was allowed for the reports of its
producers. Producers that ended do not change any more, so explanations stay valid.
-/

namespace TablePipeline

/-- Which results a task may come back with, given the reports of its producers in order. -/
abbrev Allowed := Nat → Mode → List (Option TaskReport) → Except TaskError Materialized → Prop

/-- The report of a task that is pending. -/
def TaskNode.fresh (node : TaskNode) : TaskReport := { id := node.id }

/-- The inputs of a task, given the reports of its producers. -/
def TaskNode.inputsFrom (node : TaskNode) (reports : List (Option TaskReport)) :
    List StoredOutput :=
  (node.task.inputs.zip reports).filterMap fun (input, report) =>
    report.bind (·.outputs[input.index]?)

/-- The inputs of a task depend on the outputs that its producers report. -/
theorem TaskNode.inputsFrom_congr {node node' : TaskNode}
    (references : node'.task.inputs = node.task.inputs)
    {reports reports' : List (Option TaskReport)}
    (outputs : reports'.map (Option.map TaskReport.outputs) =
      reports.map (Option.map TaskReport.outputs)) :
    node'.inputsFrom reports' = node.inputsFrom reports := by
  have told (node : TaskNode) (reports : List (Option TaskReport)) : node.inputsFrom reports =
      (node.task.inputs.zip (reports.map (Option.map TaskReport.outputs))).filterMap
        fun entry => entry.2.bind (·[entry.1.index]?) := by
    rw [TaskNode.inputsFrom, List.zip_map_right, List.filterMap_map]
    refine List.filterMap_congr fun entry _ => ?_
    obtain ⟨input, report⟩ := entry
    cases report <;> rfl
  rw [told, told, references, outputs]

namespace Coordinator

/-- The reports of some tasks. -/
def reportsOf (coordinator : Coordinator) (positions : List Nat) : List (Option TaskReport) :=
  positions.map coordinator.report?

/-- A result may come back if it is allowed for the reports of the producers. -/
def allows (plan : RunPlan) (allowed : Allowed) : Admits := fun coordinator started result =>
  allowed started.position started.mode
    (coordinator.reportsOf (plan.graph.producersOf started.position)) result

/-- Did a task end without success? -/
def Lost (coordinator : Coordinator) (position : Nat) : Prop :=
  ∃ state, coordinator.state? position = some state ∧ state.isTerminal = true ∧
    state.isSuccess = false

/-- The explanations of the report of a task. -/
inductive Explained (plan : RunPlan) (allowed : Allowed) (coordinator : Coordinator)
    (position : Nat) (node : TaskNode) : TaskReport → Prop where
  | pending : Explained plan allowed coordinator position node node.fresh
  | running (inputs : coordinator.hasInputs node.producers = true) :
      Explained plan allowed coordinator position node node.fresh.started
  | aborted {cause : Nat} {source : TaskNode} (reads : cause ∈ node.producers)
      (lost : coordinator.Lost cause) (isSource : plan.graph.nodes[cause]? = some source) :
      Explained plan allowed coordinator position node (node.fresh.abandoned (.aborted source.id))
  | stopped (inStopped : node.stage ∈ coordinator.stopped) :
      Explained plan allowed coordinator position node
        (node.fresh.abandoned (.stageStopped node.id.stage))
  | ended {mode : Mode} {result : Except TaskError Materialized}
      (inputs : coordinator.hasInputs node.producers = true)
      (takesPart : plan.mode? position = some mode)
      (allows : allowed position mode (coordinator.reportsOf node.producers) result) :
      Explained plan allowed coordinator position node (node.fresh.finished result)

/-- A task that is handed out has the inputs that its producers report. -/
structure HandedOut (plan : RunPlan) (coordinator : Coordinator) (started : StartedTask) :
    Prop where
  takesPart : plan.mode? started.position = some started.mode
  isNode : ∃ node, plan.graph.nodes[started.position]? = some node ∧
    started.inputs = coordinator.inputsOf node ∧ coordinator.hasInputs node.producers = true

/-- Every report is explained, and every task that is handed out has its inputs. -/
structure Reasoned (plan : RunPlan) (allowed : Allowed) (coordinator : Coordinator) : Prop where
  explained : ∀ {position : Nat} {node : TaskNode} {report : TaskReport},
    plan.graph.nodes[position]? = some node → coordinator.report? position = some report →
    Explained plan allowed coordinator position node report
  handedOut : ∀ started ∈ coordinator.running, HandedOut plan coordinator started
  stopped : plan.stopStageOnFailure = false → coordinator.stopped = []

variable {plan : RunPlan} {allowed : Allowed} {admits : Admits} {first last : Coordinator}
  {event : Event} {positions : List Nat}

theorem hasInputs_iff {coordinator : Coordinator} :
    coordinator.hasInputs positions = true ↔
      ∀ position ∈ positions, ∃ report, coordinator.report? position = some report ∧
        report.state.isSuccess = true := by
  rw [hasInputs, List.all_eq_true]
  refine forall₂_congr fun position _ => ?_
  rw [state?]
  cases coordinator.report? position <;> simp

theorem isTerminal_of_isSuccess {state : TaskState} (success : state.isSuccess = true) :
    state.isTerminal = true := by
  cases state <;> first | rfl | cases success

/-! ## What has ended stays as it is -/

/-- The report of a task that ended does not change. -/
theorem Move.report?_ended (coherent : first.Coherent plan)
    (move : Move plan admits first event last) {position : Nat} {report : TaskReport}
    (here : first.report? position = some report) (ended : report.state.isTerminal = true) :
    last.report? position = some report := by
  rw [move.report?_of_ne, here]
  rintro rfl
  have found := move.found coherent
  rw [Coordinator.state?, here, Option.map_some, Option.some.injEq] at found
  rw [found, event.isTerminal_before] at ended
  cases ended

theorem Move.hasInputs (coherent : first.Coherent plan) (move : Move plan admits first event last)
    (inputs : first.hasInputs positions = true) : last.hasInputs positions = true := by
  rw [hasInputs_iff] at inputs ⊢
  intro position member
  obtain ⟨report, here, success⟩ := inputs position member
  exact ⟨report, move.report?_ended coherent here (isTerminal_of_isSuccess success), success⟩

theorem Move.reportsOf (coherent : first.Coherent plan) (move : Move plan admits first event last)
    (inputs : first.hasInputs positions = true) :
    last.reportsOf positions = first.reportsOf positions := by
  refine List.map_congr_left fun position member => ?_
  obtain ⟨report, here, success⟩ := hasInputs_iff.mp inputs position member
  rw [here, move.report?_ended coherent here (isTerminal_of_isSuccess success)]

theorem Move.lost (coherent : first.Coherent plan) (move : Move plan admits first event last)
    {position : Nat} (lost : first.Lost position) : last.Lost position := by
  obtain ⟨state, here, terminal, failed⟩ := lost
  rw [Coordinator.state?, Option.map_eq_some_iff] at here
  obtain ⟨report, here, rfl⟩ := here
  refine ⟨report.state, ?_, terminal, failed⟩
  rw [Coordinator.state?, move.report?_ended coherent here terminal]
  rfl

/-- The inputs of a task are determined by the reports of its producers. -/
theorem inputsOf_eq (coordinator : Coordinator) (node : TaskNode) :
    coordinator.inputsOf node = node.inputsFrom (coordinator.reportsOf node.producers) := by
  rw [inputsOf, TaskNode.inputsFrom, reportsOf, List.zip_map_right, List.filterMap_map]
  rfl

/-! ## Explanations stay valid -/

theorem Explained.move (coherent : first.Coherent plan) (move : Move plan admits first event last)
    {position : Nat} {node : TaskNode} {report : TaskReport}
    (explained : Explained plan allowed first position node report)
    (stillStopped : ∀ stage ∈ first.stopped, stage ∈ last.stopped) :
    Explained plan allowed last position node report := by
  cases explained with
  | pending => exact .pending
  | running inputs => exact .running (move.hasInputs coherent inputs)
  | aborted reads lost isSource => exact .aborted reads (move.lost coherent lost) isSource
  | stopped inStopped => exact .stopped (stillStopped _ inStopped)
  | ended inputs takesPart allows =>
    refine .ended (move.hasInputs coherent inputs) takesPart ?_
    rwa [move.reportsOf coherent inputs]

theorem HandedOut.move (coherent : first.Coherent plan) (move : Move plan admits first event last)
    {started : StartedTask} (handedOut : HandedOut plan first started) :
    HandedOut plan last started := by
  obtain ⟨takesPart, node, isNode, given, inputs⟩ := handedOut
  refine ⟨takesPart, node, isNode, ?_, move.hasInputs coherent inputs⟩
  rw [given, inputsOf_eq, inputsOf_eq, move.reportsOf coherent inputs]

/-- A producer that a task is abandoned for ended without success. -/
theorem lost_of_blocker {coordinator : Coordinator} {cause : Nat}
    (blocked : coordinator.blocker? positions = some cause) :
    cause ∈ positions ∧ coordinator.Lost cause := by
  refine ⟨List.mem_of_find?_eq_some blocked, ?_⟩
  have failed := List.find?_some blocked
  split at failed
  · rename_i state here
    rw [Bool.and_eq_true, Bool.not_eq_true'] at failed
    exact ⟨state, here, failed⟩
  · cases failed

/-- A pending task is abandoned for a producer or for its stage. -/
theorem verdict_abort {coordinator : Coordinator} {node : TaskNode} {error : TaskError}
    (doomed : coordinator.verdict plan node = .abort error) :
    (∃ cause ∈ node.producers, coordinator.Lost cause ∧
      error = .aborted ((plan.graph.nodes[cause]?.map (·.id)).getD node.id)) ∨
      (node.stage ∈ coordinator.stopped ∧ error = .stageStopped node.id.stage) := by
  unfold verdict at doomed
  split at doomed
  · rename_i cause blocked
    obtain ⟨member, lost⟩ := lost_of_blocker blocked
    cases doomed
    exact .inl ⟨cause, member, lost, rfl⟩
  · split at doomed
    · rename_i inStopped
      cases doomed
      exact .inr ⟨inStopped, rfl⟩
    · split at doomed <;> cases doomed

/-- A task that is handed out has all its inputs, and the stages that its stage reads from have no
open task. -/
theorem verdict_start {coordinator : Coordinator} {node : TaskNode}
    (ready : coordinator.verdict plan node = .start) :
    node.stage ∉ coordinator.stopped ∧ coordinator.hasInputs node.producers = true ∧
      coordinator.stagesFinished (plan.graph.stageDeps node.stage) = true := by
  unfold verdict at ready
  split at ready
  · cases ready
  · split at ready
    · cases ready
    · rename_i notStopped
      split at ready
      · rename_i both
        rw [Bool.and_eq_true] at both
        exact ⟨notStopped, both⟩
      · cases ready

/-- A pending report says nothing yet, and a running one that its task was handed out. -/
theorem Explained.of_open {coordinator : Coordinator} {position : Nat} {node : TaskNode}
    {report : TaskReport} (explained : Explained plan allowed coordinator position node report)
    (isOpen : report.state.isTerminal = false) :
    report = node.fresh ∨
      report = node.fresh.started ∧ coordinator.hasInputs node.producers = true := by
  cases explained with
  | pending => exact .inl rfl
  | running inputs => exact .inr ⟨rfl, inputs⟩
  | aborted => cases isOpen
  | stopped => cases isOpen
  | @ended mode result =>
    rw [TaskReport.state_finished,
      TaskState.isTerminal_of_cameBack (TaskState.cameBack_ofResult result)] at isOpen
    cases isOpen

/-- Before the first move every report is explained, and no task is handed out. -/
theorem reasoned_start (plan : RunPlan) (allowed : Allowed) :
    plan.start.Reasoned plan allowed := by
  refine ⟨fun {position node report} isNode here => ?_, nofun, fun _ => rfl⟩
  rw [report?, RunPlan.start, List.getElem?_mapIdx, isNode, Option.map_some, Option.join_some,
    RunPlan.initialReport, Option.map_eq_some_iff] at here
  obtain ⟨_, _, rfl⟩ := here
  exact .pending

theorem producersOf_eq {graph : Graph} {position : Nat} {node : TaskNode}
    (isNode : graph.nodes[position]? = some node) :
    graph.producersOf position = node.producers := by
  rw [Graph.producersOf, isNode]
  rfl

/-- The report that a move leaves is explained by what the move found. -/
theorem Move.explains (sound : plan.Sound) (coherent : first.Coherent plan)
    (reasoned : first.Reasoned plan allowed)
    (move : Move plan (allows plan allowed) first event last) {node : TaskNode}
    {report : TaskReport} (isNode : plan.graph.nodes[event.position]? = some node)
    (here : first.report? event.position = some report) :
    Explained plan allowed first event.position node (event.change report) := by
  have found := move.found coherent
  rw [Coordinator.state?, here, Option.map_some, Option.some.injEq] at found
  have isOpen : report.state.isTerminal = false := by
    rw [found, event.isTerminal_before]
  have explained := (reasoned.explained isNode here).of_open isOpen
  cases move with
  | @start position mode other _ isOther _ ready =>
    cases isNode.symm.trans isOther
    rcases explained with rfl | ⟨rfl, _⟩
    · exact .running (verdict_start ready).2.1
    · cases found
  | @abort position mode other error _ isOther _ doomed =>
    cases isNode.symm.trans isOther
    rcases explained with rfl | ⟨rfl, _⟩
    · rcases verdict_abort doomed with ⟨cause, reads, lost, rfl⟩ | ⟨inStopped, rfl⟩
      · obtain ⟨_, source, isSource, _⟩ := sound.formed.producer_spec isOther reads
        rw [isSource]
        exact .aborted reads lost isSource
      · exact .stopped inStopped
    · cases found
  | @finish started result running admitted =>
    obtain ⟨takesPart, other, isOther, _, inputs⟩ := reasoned.handedOut started running
    cases isNode.symm.trans isOther
    rcases explained with rfl | ⟨rfl, _⟩
    · cases found
    · rw [allows, producersOf_eq isOther] at admitted
      have same : node.fresh.started.finished result = node.fresh.finished result := by
        cases result <;> rfl
      change Explained plan allowed first started.position node (node.fresh.started.finished result)
      rw [same]
      exact .ended inputs takesPart admitted

/-- Reports stay explained with every move. -/
theorem Reasoned.move (sound : plan.Sound) (coherent : first.Coherent plan)
    (reasoned : first.Reasoned plan allowed)
    (move : Move plan (allows plan allowed) first event last) : last.Reasoned plan allowed := by
  refine ⟨fun {position node report} isNode here => ?_, fun started member => ?_, fun goesOn => ?_⟩
  · refine Explained.move coherent move ?_ fun _ => move.mem_stopped.mpr ∘ .inl
    rw [move.report?] at here
    split at here
    · rename_i same
      subst same
      obtain ⟨before, wasHere, rfl⟩ := Option.map_eq_some_iff.mp here
      exact move.explains sound coherent reasoned isNode wasHere
    · exact reasoned.explained isNode here
  · refine HandedOut.move coherent move ?_
    rcases move.running coherent with ⟨new, rfl, running⟩ | ⟨_, running⟩
    · rw [running, List.mem_append] at member
      rcases member with old | new
      · exact reasoned.handedOut started old
      · cases List.mem_singleton.mp new
        cases move with
        | @start position mode node takesPart isNode _ ready =>
          exact ⟨takesPart, node, isNode, rfl, (verdict_start ready).2.1⟩
    · rw [running] at member
      exact reasoned.handedOut started (List.mem_filter.mp member).1
  · refine List.eq_nil_iff_forall_not_mem.mpr fun stage inStopped => ?_
    rcases move.mem_stopped.mp inStopped with earlier | ⟨stops, _⟩
    · rw [reasoned.stopped goesOn] at earlier
      cases earlier
    · cases goesOn.symm.trans stops

/-- Reports are explained after any moves. -/
theorem Path.reasoned (sound : plan.Sound) {events : List Event}
    (path : Path plan (allows plan allowed) plan.start events last) :
    last.Reasoned plan allowed := by
  induction path with
  | refl => exact reasoned_start plan allowed
  | tail path move ih => exact ih.move sound (path.coherent sound) move

end Coordinator

end TablePipeline
