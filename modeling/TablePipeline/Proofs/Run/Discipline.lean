import TablePipeline.Proofs.Run.Session
import TablePipeline.Proofs.Run.Writes

/-! # When tasks are handed out

A task is handed out when all its producers succeeded and the stages that its stage reads from have
ended, and it gets every output that it reads, in the order in which it declares them. The
coordinator drops an output that a producer does not report; there is none, as long as a task that
succeeds gives as many outputs as it declares, which materialising guarantees.

What a moment of a run is like is told by cutting its path at an event: the events before lead to
that moment, and those after it go on from there.
-/

namespace TablePipeline

/-- The changes of state that a run makes. -/
inductive TaskState.Change : TaskState → TaskState → Prop where
  | start : Change .pending .running
  | abort : Change .pending .aborted
  | skip : Change .running .skipped
  | succeed : Change .running .succeeded
  | fail : Change .running .failed

/-- A task that succeeds comes back with as many outputs as it declares. -/
def Graph.complete (graph : Graph) : Allowed := fun position _ _ result =>
  ∀ node materialized, graph.nodes[position]? = some node → result = .ok materialized →
    materialized.outputs.length = node.task.outputs.length

/-- Where each pair of two lists is mapped to something, nothing is dropped. -/
theorem forall₂_filterMap_zip {α β γ : Type} {related : α → β → Prop} {gives : α → γ → Prop}
    {f : α × β → Option γ} {items : List α} {others : List β}
    (each : List.Forall₂ related items others)
    (found : ∀ {item other}, other ∈ others → related item other →
      ∃ result, f (item, other) = some result ∧ gives item result) :
    List.Forall₂ gives items ((items.zip others).filterMap f) := by
  induction each with
  | nil => exact .nil
  | cons first _ ih =>
    obtain ⟨result, isResult, given⟩ := found (.head _) first
    rw [List.zip_cons_cons, List.filterMap_cons_some isResult]
    exact .cons given (ih fun member => found (.tail _ member))

/-! ## What materialising gives -/

/-- A job that is materialised gives as many outputs as its task declares. -/
theorem Workshop.length_of_materialize {workshop after : Workshop} {job : Job} {mode : Mode}
    {materialized : Materialized}
    (done : workshop.materialize job mode = (after, .ok materialized)) :
    materialized.outputs.length = job.task.outputs.length := by
  cases outcome_of_materialize done with
  | served hit => exact (Store.cached_eq_hit.mp hit).length_eq.symm
  | ran _ checked =>
    rw [List.length_map, Job.writes, List.length_map, List.length_zip,
      length_of_checkOutputs checked, Nat.min_self]

/-- In a session on a store, tasks that succeed come back with as many outputs as they declare. -/
theorem Session.complete_path {plan : RunPlan} {others : Interference} {opened workshop : Workshop}
    {events : List Event} {jobs : List Job} {coordinator : Coordinator}
    (session : Session plan others opened events jobs coordinator workshop) :
    Coordinator.Path plan (Coordinator.allows plan plan.graph.complete) plan.start events
      coordinator := by
  induction session with
  | start => exact .refl
  | scan _ move ih => exact ih.tail (move.imp fun not => not.elim)
  | @finish _ _ _ _ _ _ _ _ _ running isNode done ih =>
    refine ih.tail (.finish running fun other materialized isOther same => ?_)
    cases isNode.symm.trans isOther
    rw [same] at done
    exact Workshop.length_of_materialize done
  | other _ _ ih => exact ih

namespace Event

theorem change_state (event : Event) : TaskState.Change event.before event.after := by
  cases event with
  | start => exact .start
  | abort => exact .abort
  | finish position result =>
    cases result with
    | error => exact .fail
    | ok materialized =>
      rw [after, TaskState.ofResult]
      cases materialized.source with
      | executed => exact .succeed
      | cache | coalesced => exact .skip

end Event

namespace Coordinator

/-- The output that a reference names, as the task that it names reports it. -/
def Supplies (plan : RunPlan) (coordinator : Coordinator) (input : OutputRef)
    (output : StoredOutput) : Prop :=
  ∃ position node report, plan.graph.nodes[position]? = some node ∧ node.id = input.task ∧
    node.task.outputs[input.index]? = some ⟨input.name, input.kind⟩ ∧
    coordinator.report? position = some report ∧ report.outputs[input.index]? = some output

/-- What has to hold when a task is handed out. -/
structure Ready (plan : RunPlan) (coordinator : Coordinator) (node : TaskNode)
    (started : StartedTask) : Prop where
  producers : ∀ producer ∈ node.producers,
    coordinator.state? producer = some .skipped ∨ coordinator.state? producer = some .succeeded
  /-- Every task that takes part, in the stages that the stage of this one reads from, has ended. -/
  stages : ∀ stage ∈ plan.graph.stageDeps node.stage, ∀ task, (plan.mode? task).isSome →
    plan.graph.stageOf task = stage →
    ∃ state, coordinator.state? task = some state ∧ state.isTerminal = true
  inputs : List.Forall₂ (Supplies plan coordinator) node.task.inputs started.inputs

variable {plan : RunPlan} {admits : Admits} {first last : Coordinator} {event : Event}
  {events : List Event}

/-! ## Moments of a path -/

/-- A path can be cut at each of its events. -/
theorem Path.cut {early late : List Event}
    (path : Path plan admits first (early ++ event :: late) last) :
    ∃ before after, Path plan admits first early before ∧ Move plan admits before event after ∧
      Path plan admits after late last := by
  generalize all : early ++ event :: late = events at path
  induction path generalizing late with
  | refl => cases List.append_ne_nil_of_right_ne_nil early (List.cons_ne_nil event late) all
  | @tail events final middle last path move ih =>
    rcases List.eq_nil_or_concat late with rfl | ⟨rest, other, rfl⟩
    · obtain ⟨rfl, same⟩ := List.append_inj' all rfl
      cases same
      exact ⟨middle, last, path, move, .refl⟩
    · rw [List.concat_eq_append, ← List.cons_append, ← List.append_assoc] at all
      obtain ⟨same, isFinal⟩ := List.append_inj' all rfl
      cases isFinal
      obtain ⟨before, after, earlier, here, later⟩ := ih same
      refine ⟨before, after, earlier, here, ?_⟩
      rw [List.concat_eq_append]
      exact later.tail move

/-- The report of a task that ended does not change any more. -/
theorem Path.report?_ended (sound : plan.Sound) (coherent : first.Coherent plan)
    (path : Path plan admits first events last) {position : Nat} {report : TaskReport}
    (here : first.report? position = some report) (ended : report.state.isTerminal = true) :
    last.report? position = some report := by
  induction path with
  | refl => exact here
  | tail path move ih => exact move.report?_ended (coherent.path sound path) ih ended

/-- A stage that is stopped stays so. -/
theorem Path.stopped (path : Path plan admits first events last) {stage : Nat}
    (inStopped : stage ∈ first.stopped) : stage ∈ last.stopped := by
  induction path with
  | refl => exact inStopped
  | tail _ move ih => exact move.mem_stopped.mpr (.inl ih)

/-- No task of a stopped stage is handed out. -/
theorem Move.not_stopped {started : StartedTask}
    (move : Move plan admits first (.start started) last) :
    plan.graph.stageOf started.position ∉ first.stopped := by
  cases move with
  | start _ isNode _ ready =>
    rw [Graph.stageOf_eq isNode]
    exact (verdict_start ready).1

/-- A move changes the state of a task in one of five ways, or not at all. -/
theorem Move.change (coherent : first.Coherent plan) (move : Move plan admits first event last)
    (position : Nat) :
    last.state? position = first.state? position ∨ ∃ old new,
      first.state? position = some old ∧ last.state? position = some new ∧ old.Change new := by
  rw [move.state? coherent]
  split
  · rename_i same
    exact .inr ⟨_, _, same ▸ move.found coherent, rfl, event.change_state⟩
  · exact .inl rfl

/-! ## What holds when a task is handed out -/

/-- No task that takes part is open in a stage that is finished. -/
theorem Coherent.ended_of_stagesFinished (sound : plan.Sound) (coherent : first.Coherent plan)
    {stages : List Nat} (finished : first.stagesFinished stages = true) {task : Nat}
    (member : plan.graph.stageOf task ∈ stages) (takesPart : (plan.mode? task).isSome) :
    ∃ state, first.state? task = some state ∧ state.isTerminal = true := by
  obtain ⟨node, isNode⟩ := sound.isNode takesPart
  have isStage : plan.graph.stageOf task < plan.graph.stages.length := by
    rw [Graph.stageOf_eq isNode]
    exact sound.formed.stage_lt isNode
  have count := List.all_eq_true.mp finished _ member
  rw [coherent.unfinished _ isStage, Option.getD_some, decide_eq_true_iff,
    Finset.card_eq_zero] at count
  have known := takesPart
  rw [← coherent.takesPart, Option.isSome_iff_exists] at known
  obtain ⟨state, here⟩ := known
  refine ⟨state, here, ?_⟩
  by_contra notEnded
  have isOpen : task ∈ first.openTasks plan (plan.graph.stageOf task) :=
    mem_openTasks.mpr ⟨sound.inside takesPart, rfl, state, here, Bool.eq_false_iff.mpr notEnded⟩
  rw [count] at isOpen
  cases isOpen

/-- A task that succeeded reports as many outputs as it declares. -/
theorem Reasoned.length_outputs (reasoned : first.Reasoned plan plan.graph.complete)
    {position : Nat} {node : TaskNode} {report : TaskReport}
    (isNode : plan.graph.nodes[position]? = some node)
    (here : first.report? position = some report) (success : report.state.isSuccess = true) :
    report.outputs.length = node.task.outputs.length := by
  cases reasoned.explained isNode here with
  | pending | running | aborted | stopped => cases success
  | @ended mode result _ _ allows =>
    cases result with
    | error => cases success
    | ok materialized => exact allows node materialized isNode rfl

/-- Where all producers succeeded, a task gets every output that it reads. -/
theorem Reasoned.supplies (sound : plan.Sound)
    (reasoned : first.Reasoned plan plan.graph.complete) {position : Nat} {node : TaskNode}
    (isNode : plan.graph.nodes[position]? = some node)
    (inputs : first.hasInputs node.producers = true) :
    List.Forall₂ (Supplies plan first) node.task.inputs (first.inputsOf node) := by
  refine forall₂_filterMap_zip (sound.formed.gives isNode) fun {input producer} member given => ?_
  obtain ⟨_, source, isSource, named, _, declared⟩ := given
  obtain ⟨report, here, success⟩ := hasInputs_iff.mp inputs producer member
  have enough : input.index < report.outputs.length := by
    rw [reasoned.length_outputs isSource here success]
    exact (List.getElem?_eq_some_iff.mp declared).1
  have reported := List.getElem?_eq_getElem enough
  refine ⟨_, ?_, producer, source, report, isSource, named, declared, here, reported⟩
  change (first.report? producer >>= fun report => report.outputs[input.index]?) = _
  rw [here]
  exact reported

/-- A task that is handed out is ready. -/
theorem Move.ready (sound : plan.Sound) (coherent : first.Coherent plan)
    (reasoned : first.Reasoned plan plan.graph.complete) {started : StartedTask}
    (move : Move plan admits first (.start started) last) :
    ∃ node, plan.graph.nodes[started.position]? = some node ∧ Ready plan first node started := by
  cases move with
  | @start position mode node takesPart isNode _ ready =>
    obtain ⟨_, inputs, finished⟩ := verdict_start ready
    refine ⟨node, isNode, fun producer member => ?_, fun stage member task takesPart inStage => ?_,
      reasoned.supplies sound isNode inputs⟩
    · obtain ⟨report, here, success⟩ := hasInputs_iff.mp inputs producer member
      rw [Coordinator.state?, here, Option.map_some, Option.some.injEq, Option.some.injEq]
      cases found : report.state with
      | skipped => exact .inl rfl
      | succeeded => exact .inr rfl
      | pending | running | failed | aborted => rw [found] at success; cases success
    · subst inStage
      exact coherent.ended_of_stagesFinished sound finished member takesPart

/-! ## The rules of a run -/

/-- What every run keeps to. -/
structure Disciplined (plan : RunPlan) (admits : Admits) (events : List Event)
    (coordinator : Coordinator) : Prop where
  /-- A task that is not pending and was not abandoned was handed out. -/
  handedOut : ∀ {position : Nat} {state : TaskState}, coordinator.state? position = some state →
    state ≠ .pending → state ≠ .aborted →
    ∃ started, .start started ∈ events ∧ started.position = position
  /-- Whatever was handed out was ready at that moment. -/
  ready : ∀ {early late : List Event} {started : StartedTask},
    events = early ++ .start started :: late → ∃ before after node,
      Path plan admits plan.start early before ∧
      Move plan admits before (.start started) after ∧
      Path plan admits after late coordinator ∧
      plan.graph.nodes[started.position]? = some node ∧ Ready plan before node started
  /-- The next move changes the state of a task in one of five ways, or not at all. -/
  changes : ∀ {event : Event} {next : Coordinator}, Move plan admits coordinator event next →
    ∀ position, next.state? position = coordinator.state? position ∨ ∃ old new,
      coordinator.state? position = some old ∧ next.state? position = some new ∧ old.Change new
  /-- The report of a task that ended does not change any more. -/
  final : ∀ {more : List Event} {later : Coordinator}, Path plan admits coordinator more later →
    ∀ {position : Nat} {report : TaskReport}, coordinator.report? position = some report →
      report.state.isTerminal = true → later.report? position = some report
  /-- After a failure no task of its stage is handed out, if the plan says so. -/
  stopped : plan.stopStageOnFailure = true → ∀ {early late : List Event} {position : Nat}
    {error : TaskError}, events = early ++ .finish position (.error error) :: late →
    ∀ started, .start started ∈ late →
      plan.graph.stageOf started.position ≠ plan.graph.stageOf position

/-- A task that was handed out is found among the events. -/
theorem Path.exists_start (sound : plan.Sound) (path : Path plan admits plan.start events last)
    {position : Nat} {state : TaskState} (here : last.state? position = some state)
    (notPending : state ≠ .pending) (notAborted : state ≠ .aborted) :
    ∃ started, .start started ∈ events ∧ started.position = position := by
  have starts := (path.recorded sound position).1
  have wasStarted : state.wasStarted = true := by
    cases state with
    | pending => exact absurd rfl notPending
    | aborted => exact absurd rfl notAborted
    | running | skipped | succeeded | failed => rfl
  rw [here, Option.any_some, wasStarted] at starts
  have some : 0 < Event.startsOf position events := by
    rw [starts]
    exact Nat.one_pos
  obtain ⟨event, member, isStart⟩ := List.countP_pos_iff.mp some
  rw [Bool.and_eq_true, decide_eq_true_iff] at isStart
  obtain ⟨isStart, same⟩ := isStart
  cases event with
  | start started => exact ⟨started, member, same⟩
  | abort | finish => cases isStart

/-- After a failure that stops its stage, no task of that stage is handed out. -/
theorem Path.not_started (stops : plan.stopStageOnFailure = true) {early late : List Event}
    {position : Nat} {error : TaskError}
    (path : Path plan admits first (early ++ .finish position (.error error) :: late) last)
    {started : StartedTask} (member : .start started ∈ late) :
    plan.graph.stageOf started.position ≠ plan.graph.stageOf position := by
  obtain ⟨_, failed, _, failure, path⟩ := path.cut
  obtain ⟨between, rest, rfl⟩ := List.append_of_mem member
  obtain ⟨before, _, path, start, _⟩ := path.cut
  intro same
  refine start.not_stopped ?_
  rw [same]
  exact path.stopped (failure.mem_stopped.mpr (.inr ⟨stops, rfl, rfl⟩))

/-- After any moves, with any tasks coming back in any order and with any results that have as many
outputs as are declared, every task that was handed out was ready and got what it reads, and tasks
changed their states as they may. -/
theorem disciplined_of_path {config : RunConfig} {graph : Graph} (built : graph.Built)
    (plans : config.Plans graph plan)
    (path : Path plan (allows plan plan.graph.complete) plan.start events last) :
    Disciplined plan (allows plan plan.graph.complete) events last := by
  have sound := plans.sound built
  have coherent := path.coherent sound
  refine ⟨path.exists_start sound, fun {early late started} split => ?_, fun move =>
    move.change coherent, fun later _ _ => later.report?_ended sound coherent,
    fun stops {early late position error} split started member => ?_⟩
  · subst split
    obtain ⟨before, after, earlier, move, later⟩ := path.cut
    obtain ⟨node, isNode, ready⟩ :=
      move.ready sound (earlier.coherent sound) (earlier.reasoned sound)
    exact ⟨before, after, node, earlier, move, later, isNode, ready⟩
  · subst split
    exact path.not_started stops member

/-- The artifact of the first task of `stagedGraph`. -/
def rawOutput : StoredOutput :=
  ⟨.ofFingerprint "load" "raw" ⟨⟨[]⟩⟩, .blob ⟨"raw", [1, 2, 3]⟩⟩

/-- All tasks of `stagedGraph` take part, and a failure stops its stage. -/
def strictPlan : RunPlan := RunConfig.fullPlan { stopStageOnFailure := true } stagedGraph

/-- The task in the middle gets the output of the first one and fails, so the last one, which is of
its stage, is never handed out. -/
theorem disciplined_strictPlan :
    ∃ events last sum, Path strictPlan (allows strictPlan strictPlan.graph.complete)
        strictPlan.start events last ∧ .start sum ∈ events ∧ sum.inputs = [rawOutput] ∧
      last.state? 2 = some .aborted ∧
      Disciplined strictPlan (allows strictPlan strictPlan.graph.complete) events last := by
  have raw := Path.refl.tail
    (@Move.start strictPlan (allows strictPlan strictPlan.graph.complete) strictPlan.start 0 _ _
      rfl rfl rfl rfl)
  have loaded := raw.tail (@Move.finish _ _ _ _ (.ok ⟨⟨⟨[]⟩⟩, [rawOutput], .executed, false⟩)
    (.head _) fun node materialized isNode same => by cases isNode; cases same; rfl)
  have sum := loaded.tail (@Move.start _ _ _ 1 _ _ rfl rfl rfl rfl)
  have failed := sum.tail (@Move.finish _ _ _ _ (.error (.failed "no rows")) (.head _)
    fun _ _ _ same => nomatch same)
  have note := failed.tail (@Move.abort _ _ _ 2 _ _ _ rfl rfl rfl rfl)
  exact ⟨_, _, _, note, .tail _ (.tail _ (.head _)), rfl, rfl,
    disciplined_of_path built_stagedGraph .full note⟩

end Coordinator

end TablePipeline
