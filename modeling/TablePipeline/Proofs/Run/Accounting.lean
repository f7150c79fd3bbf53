import Mathlib.Data.Nat.Count
import TablePipeline.Proofs.Run.Moves

/-! # The accounts of a coordinator

The coordinator keeps two accounts: how many tasks of each stage have not ended, and which tasks are
handed out. Both agree with the reports after any moves, so no count is ever lowered below zero, and
what happened to a task can be told from its state.

A coordinator that has nothing handed out and cannot move has no pending task left. The first of
the pending tasks, by stage and then by position, waits for nothing: what it reads stands before it
in this order, and so do the tasks of the stages that its stage reads from.
-/

namespace TablePipeline

namespace TaskState

/-- Was a task in this state handed out? -/
def wasStarted : TaskState → Bool
  | running | skipped | succeeded | failed => true
  | pending | aborted => false

/-- Did a task in this state come back? -/
def cameBack : TaskState → Bool
  | skipped | succeeded | failed => true
  | pending | running | aborted => false

/-- The state of a task that comes back with a result. -/
def ofResult : Except TaskError Materialized → TaskState
  | .ok result =>
    match result.source with
    | .executed => succeeded
    | .cache | .coalesced => skipped
  | .error _ => failed

theorem cameBack_ofResult (result : Except TaskError Materialized) :
    (ofResult result).cameBack = true := by
  cases result with
  | error => rfl
  | ok result =>
    rw [ofResult]
    cases result.source <;> rfl

theorem ofResult_eq_failed {result : Except TaskError Materialized} :
    ofResult result = failed ↔ result.isOk = false := by
  cases result with
  | error => exact iff_of_true rfl rfl
  | ok result =>
    rw [ofResult]
    cases result.source <;> exact iff_of_false nofun nofun

theorem wasStarted_of_cameBack {state : TaskState} (back : state.cameBack = true) :
    state.wasStarted = true := by
  cases state <;> first | rfl | cases back

theorem isTerminal_of_cameBack {state : TaskState} (back : state.cameBack = true) :
    state.isTerminal = true := by
  cases state <;> first | rfl | cases back

end TaskState

theorem TaskReport.state_finished (report : TaskReport) (result : Except TaskError Materialized) :
    (report.finished result).state = .ofResult result := by
  cases result <;> rfl

namespace Event

/-- The state that an event finds its task in. -/
def before : Event → TaskState
  | start _ | abort .. => .pending
  | finish .. => .running

/-- The state that an event leaves its task in. -/
def after : Event → TaskState
  | start _ => .running
  | abort .. => .aborted
  | finish _ result => .ofResult result

theorem state_change (event : Event) (report : TaskReport) :
    (event.change report).state = event.after := by
  cases event with
  | start => rfl
  | abort => rfl
  | finish position result => exact report.state_finished result

theorem isTerminal_before (event : Event) : event.before.isTerminal = false := by
  cases event <;> rfl

/-- An event leaves its task running, or in a last state. -/
theorem isTerminal_after (event : Event) : event.after.isTerminal = !event.isStart := by
  cases event with
  | start => rfl
  | abort => rfl
  | finish _ result => exact TaskState.isTerminal_of_cameBack (TaskState.cameBack_ofResult result)

theorem wasStarted_before (event : Event) : event.before.wasStarted = event.isFinish := by
  cases event <;> rfl

theorem wasStarted_after (event : Event) :
    event.after.wasStarted.toNat = event.isStart.toNat + event.isFinish.toNat := by
  cases event with
  | start => rfl
  | abort => rfl
  | finish _ result =>
    have started := TaskState.wasStarted_of_cameBack (TaskState.cameBack_ofResult result)
    rw [after, started]
    rfl

theorem cameBack_before (event : Event) : event.before.cameBack = false := by
  cases event <;> rfl

theorem cameBack_after (event : Event) : event.after.cameBack = event.isFinish := by
  cases event with
  | start => rfl
  | abort => rfl
  | finish _ result => exact TaskState.cameBack_ofResult result

/-- How often a task is handed out. -/
def startsOf (position : Nat) (events : List Event) : Nat :=
  events.countP fun event => event.isStart && event.position = position

/-- How often a task comes back. -/
def finishesOf (position : Nat) (events : List Event) : Nat :=
  events.countP fun event => event.isFinish && event.position = position

end Event

namespace Coordinator

/-- The tasks that take part and have not ended. -/
def unended (plan : RunPlan) (coordinator : Coordinator) : Finset Nat :=
  {position ∈ Finset.range plan.graph.size |
    (coordinator.state? position).any (!·.isTerminal) = true}

/-- The tasks of a stage that take part and have not ended. -/
def openTasks (plan : RunPlan) (coordinator : Coordinator) (stage : Nat) : Finset Nat :=
  {position ∈ coordinator.unended plan | plan.graph.stageOf position = stage}

/-- The tasks that are in a state. -/
def tasksIn (plan : RunPlan) (coordinator : Coordinator) (state : TaskState) : Finset Nat :=
  {position ∈ Finset.range plan.graph.size | coordinator.state? position = some state}

/-- The accounts of a coordinator agree with its reports. -/
structure Coherent (plan : RunPlan) (coordinator : Coordinator) : Prop where
  takesPart : ∀ position, (coordinator.state? position).isSome = (plan.mode? position).isSome
  distinct : (coordinator.running.map (·.position)).Nodup
  running : ∀ position, position ∈ coordinator.running.map (·.position) ↔
    coordinator.state? position = some .running
  unfinished : ∀ stage < plan.graph.stages.length,
    coordinator.unfinished[stage]? = some (coordinator.openTasks plan stage).card

variable {plan : RunPlan} {admits : Admits} {first last : Coordinator} {event : Event}

theorem Coherent.inside (coherent : first.Coherent plan) (sound : plan.Sound) {position : Nat}
    {state : TaskState} (here : first.state? position = some state) :
    position < plan.graph.size := by
  have takesPart := coherent.takesPart position
  rw [here, Option.isSome_some] at takesPart
  exact sound.inside takesPart.symm

/-! ## What a move does to the accounts -/

/-- A move finds its task pending, or running if the task comes back. -/
theorem Move.found (coherent : first.Coherent plan) (move : Move plan admits first event last) :
    first.state? event.position = some event.before := by
  cases move with
  | start _ _ pending _ => exact pending
  | abort _ _ pending _ => exact pending
  | @finish started result running _ =>
    exact (coherent.running _).mp (List.mem_map_of_mem running)

/-- A move changes the state of its task, and of no other. -/
theorem Move.state? (coherent : first.Coherent plan) (move : Move plan admits first event last)
    (position : Nat) :
    last.state? position =
      if position = event.position then some event.after else first.state? position := by
  have found := move.found coherent
  rw [Coordinator.state?, Option.map_eq_some_iff] at found
  obtain ⟨report, here, _⟩ := found
  rw [Coordinator.state?, move.report?]
  split
  · rename_i same
    rw [same, here, Option.map_some, Option.map_some, event.state_change]
  · rfl

/-- A move lowers the count of its stage when it ends its task. -/
theorem Move.unfinished (move : Move plan admits first event last) :
    last.unfinished =
      if event.after.isTerminal then
        first.unfinished.modify (plan.graph.stageOf event.position) (· - 1)
      else first.unfinished := by
  rw [event.isTerminal_after]
  cases move with
  | start => rfl
  | abort _ isNode _ _ =>
    rw [Event.position, Graph.stageOf_eq isNode]
    rfl
  | finish =>
    rw [complete_eq]
    rfl

theorem mem_unended {coordinator : Coordinator} {position : Nat} :
    position ∈ coordinator.unended plan ↔ position < plan.graph.size ∧
      ∃ state, coordinator.state? position = some state ∧ state.isTerminal = false := by
  rw [unended, Finset.mem_filter, Finset.mem_range]
  cases coordinator.state? position <;> simp

theorem mem_openTasks {coordinator : Coordinator} {stage position : Nat} :
    position ∈ coordinator.openTasks plan stage ↔
      position < plan.graph.size ∧ plan.graph.stageOf position = stage ∧
        ∃ state, coordinator.state? position = some state ∧ state.isTerminal = false := by
  rw [openTasks, Finset.mem_filter, mem_unended, and_assoc, and_comm (b := _ = stage)]

theorem mem_tasksIn {coordinator : Coordinator} {state : TaskState} {position : Nat} :
    position ∈ coordinator.tasksIn plan state ↔
      position < plan.graph.size ∧ coordinator.state? position = some state := by
  rw [tasksIn, Finset.mem_filter, Finset.mem_range]

/-- A move takes its task out of those that have not ended when it ends the task. -/
theorem Move.unended (coherent : first.Coherent plan) (move : Move plan admits first event last) :
    last.unended plan =
      if event.after.isTerminal then (first.unended plan).erase event.position
      else first.unended plan := by
  have found := move.found coherent
  have wasOpen := event.isTerminal_before
  ext position
  rw [mem_unended, move.state? coherent]
  by_cases same : position = event.position
  · subst same
    cases ends : event.after.isTerminal <;> simp [mem_unended, found, wasOpen, ends]
  · cases event.after.isTerminal <;> simp [mem_unended, same]

theorem Move.openTasks (coherent : first.Coherent plan) (move : Move plan admits first event last)
    (stage : Nat) :
    last.openTasks plan stage =
      if event.after.isTerminal then (first.openTasks plan stage).erase event.position
      else first.openTasks plan stage := by
  rw [Coordinator.openTasks, move.unended coherent, Coordinator.openTasks]
  split
  · exact Finset.filter_erase ..
  · rfl

/-- A move ends a task that was open. -/
theorem Move.mem_openTasks (sound : plan.Sound) (coherent : first.Coherent plan)
    (move : Move plan admits first event last) :
    event.position ∈ first.openTasks plan (plan.graph.stageOf event.position) := by
  have found := move.found coherent
  exact Coordinator.mem_openTasks.mpr
    ⟨coherent.inside sound found, rfl, event.before, found, event.isTerminal_before⟩

/-- A task is handed out when it starts, and no more when it comes back. -/
theorem Move.running (coherent : first.Coherent plan) (move : Move plan admits first event last) :
    (∃ started, event = .start started ∧ last.running = first.running ++ [started]) ∨
      (event.isStart = false ∧
        last.running = first.running.filter (·.position ≠ event.position)) := by
  have found := move.found coherent
  cases move with
  | start => exact .inl ⟨_, rfl, rfl⟩
  | @abort position mode node error _ _ pending _ =>
    refine .inr ⟨rfl, (List.filter_eq_self.mpr fun started member => ?_).symm⟩
    refine decide_eq_true fun same => ?_
    have running := (coherent.running _).mp (List.mem_map_of_mem member)
    rw [same, show Event.position (.abort position error) = position from rfl, pending] at running
    cases running
  | finish =>
    rw [complete_eq]
    exact .inr ⟨rfl, rfl⟩

/-- A move stops a stage when it fails one of its tasks, if the plan says so. A stage that is
stopped stays so. -/
theorem Move.mem_stopped (move : Move plan admits first event last) {stage : Nat} :
    stage ∈ last.stopped ↔ stage ∈ first.stopped ∨
      plan.stopStageOnFailure = true ∧ event.after = .failed ∧
        plan.graph.stageOf event.position = stage := by
  cases move with
  | start => exact (or_iff_left nofun).symm
  | abort => exact (or_iff_left nofun).symm
  | @finish started result =>
    rw [complete_eq, Event.after, TaskState.ofResult_eq_failed, Event.position]
    cases plan.stopStageOnFailure <;> cases result.isOk <;> simp [or_comm, eq_comm]

/-! ## The accounts stay right -/

/-- Nothing is handed out before the first move, and all tasks that take part are pending. -/
theorem state?_start (sound : plan.Sound) (position : Nat) :
    plan.start.state? position = (plan.mode? position).map fun _ => .pending := by
  rw [state?, report?, RunPlan.start, List.getElem?_mapIdx]
  cases here : plan.graph.nodes[position]? with
  | none =>
    cases takesPart : plan.mode? position with
    | none => rfl
    | some mode =>
      have inside := sound.inside (by rw [takesPart]; rfl)
      rw [List.getElem?_eq_none_iff] at here
      exact absurd inside (Nat.not_lt.mpr here)
  | some node =>
    rw [Option.map_some, Option.join_some, RunPlan.initialReport]
    cases plan.mode? position <;> rfl

/-- The tasks of a stage that take part are counted by position. -/
private theorem length_filter_zipIdx (graph : Graph) (keep : Nat → Bool) (stage : Nat) :
    (graph.nodes.zipIdx.filter fun (node, position) => keep position && node.stage = stage).length =
      ((List.range graph.size).filter fun position =>
        keep position && graph.stageOf position = stage).length := by
  have positions : graph.nodes.zipIdx.map Prod.snd = List.range graph.size := by
    rw [List.zipIdx_map_snd, List.range_eq_range']
    rfl
  rw [← List.countP_eq_length_filter, ← List.countP_eq_length_filter, ← positions,
    List.countP_map]
  refine List.countP_congr fun entry member => ?_
  have here := List.mem_zipIdx_iff_getElem?.mp member
  simp only [Function.comp_apply, Graph.stageOf_eq here]

/-- The accounts are right before the first move. -/
theorem coherent_start (sound : plan.Sound) : plan.start.Coherent plan := by
  refine ⟨fun position => ?_, .nil, fun position => ?_, fun stage inside => ?_⟩
  · rw [state?_start sound, Option.isSome_map]
  · rw [state?_start sound]
    cases plan.mode? position <;> simp [RunPlan.start]
  · have pending : plan.start.openTasks plan stage =
        ((List.range plan.graph.size).filter fun position =>
          (plan.mode? position).isSome && plan.graph.stageOf position = stage).toFinset := by
      ext position
      rw [mem_openTasks, state?_start sound, List.mem_toFinset, List.mem_filter, List.mem_range]
      cases plan.mode? position <;> simp [TaskState.isTerminal]
    rw [pending, List.toFinset_card_of_nodup (List.nodup_range.filter _), RunPlan.start,
      List.getElem?_map, List.getElem?_range inside]
    exact congrArg some
      (length_filter_zipIdx plan.graph (fun position => (plan.mode? position).isSome) stage)

/-- No task is handed out twice at a time. -/
theorem Move.distinct (coherent : first.Coherent plan) (move : Move plan admits first event last) :
    (last.running.map (·.position)).Nodup := by
  have found := move.found coherent
  rcases move.running coherent with ⟨started, rfl, running⟩ | ⟨_, running⟩
  · rw [running, List.map_append, List.nodup_append]
    refine ⟨coherent.distinct, List.pairwise_singleton .., fun other member last isLast same => ?_⟩
    rw [List.mem_singleton.mp isLast] at same
    rw [coherent.running, same] at member
    exact TaskState.noConfusion (Option.some.inj (member.symm.trans found))
  · rw [running]
    exact (List.filter_sublist.map _).nodup coherent.distinct

/-- The tasks that are handed out after a move are those that are running. -/
theorem Move.mem_running (coherent : first.Coherent plan)
    (move : Move plan admits first event last) (position : Nat) :
    position ∈ last.running.map (·.position) ↔ last.state? position = some .running := by
  rw [move.state? coherent]
  rcases move.running coherent with ⟨started, rfl, running⟩ | ⟨ends, running⟩
  · rw [running, List.map_append, List.mem_append, coherent.running]
    by_cases same : position = started.position
    · simp [same, Event.position, Event.after]
    · simp [same, Event.position]
  · have notRunning : event.after ≠ .running := by
      intro same
      have terminal := event.isTerminal_after
      rw [ends, same] at terminal
      cases terminal
    rw [running]
    by_cases same : position = event.position
    · simp [same, notRunning]
    · rw [if_neg same, ← coherent.running, List.mem_map, List.mem_map]
      constructor
      · rintro ⟨started, member, here⟩
        exact ⟨started, (List.mem_filter.mp member).1, here⟩
      · rintro ⟨started, member, here⟩
        exact ⟨started, List.mem_filter.mpr ⟨member, decide_eq_true (here ▸ same)⟩, here⟩

/-- The count of a stage is right after a move. -/
theorem Move.count (sound : plan.Sound) (coherent : first.Coherent plan)
    (move : Move plan admits first event last) {stage : Nat}
    (inside : stage < plan.graph.stages.length) :
    last.unfinished[stage]? = some (last.openTasks plan stage).card := by
  have count := coherent.unfinished stage inside
  rw [move.unfinished, move.openTasks coherent]
  split
  · rw [List.getElem?_modify, count]
    by_cases same : plan.graph.stageOf event.position = stage
    · subst same
      simp [Finset.card_erase_of_mem (move.mem_openTasks sound coherent)]
    · have notHere : event.position ∉ first.openTasks plan stage := fun member =>
        same (Coordinator.mem_openTasks.mp member).2.1
      simp [same, Finset.erase_eq_of_notMem notHere]
  · exact count

/-- The accounts stay right with every move. -/
theorem Coherent.move (sound : plan.Sound) (coherent : first.Coherent plan)
    (move : Move plan admits first event last) : last.Coherent plan where
  takesPart position := by
    rw [← coherent.takesPart, move.state? coherent]
    split
    · rename_i same
      rw [same, move.found coherent]
      rfl
    · rfl
  distinct := move.distinct coherent
  running := move.mem_running coherent
  unfinished _ := move.count sound coherent

/-- The accounts are right after any moves. -/
theorem Path.coherent (sound : plan.Sound) {events : List Event}
    (path : Path plan admits plan.start events last) : last.Coherent plan := by
  induction path with
  | refl => exact coherent_start sound
  | tail _ move ih => exact ih.move sound move

/-! ## What happened to a task -/

/-- How often a task was handed out and came back can be told from its state. -/
def Recorded (events : List Event) (coordinator : Coordinator) : Prop :=
  ∀ position,
    Event.startsOf position events = ((coordinator.state? position).any (·.wasStarted)).toNat ∧
      Event.finishesOf position events = ((coordinator.state? position).any (·.cameBack)).toNat

theorem recorded_start (sound : plan.Sound) : Recorded [] plan.start := by
  intro position
  rw [state?_start sound]
  cases plan.mode? position <;> exact ⟨rfl, rfl⟩

theorem Recorded.move {events : List Event} (recorded : Recorded events first)
    (coherent : first.Coherent plan) (move : Move plan admits first event last) :
    Recorded (events ++ [event]) last := by
  have found := move.found coherent
  intro position
  obtain ⟨starts, finishes⟩ := recorded position
  rw [Event.startsOf, Event.finishesOf, List.countP_append, List.countP_append,
    List.countP_singleton, List.countP_singleton, move.state? coherent]
  rw [Event.startsOf] at starts
  rw [Event.finishesOf] at finishes
  rw [starts, finishes]
  by_cases same : position = event.position
  · subst same
    rw [found, if_pos rfl, Option.any_some, Option.any_some, Option.any_some, Option.any_some,
      event.wasStarted_before, event.wasStarted_after, event.cameBack_before, event.cameBack_after]
    cases event <;> simp [Event.isStart, Event.isFinish]
  · have other : event.position ≠ position := Ne.symm same
    simp [same, other]

theorem Path.recorded (sound : plan.Sound) {events : List Event}
    (path : Path plan admits plan.start events last) : Recorded events last := by
  induction path with
  | refl => exact recorded_start sound
  | tail path move ih => exact ih.move (path.coherent sound) move

/-! ## Nothing is left behind -/

/-- A task that waits is not lost, and misses a producer or a stage. -/
theorem verdict_wait {coordinator : Coordinator} {node : TaskNode}
    (waits : coordinator.verdict plan node = .wait) :
    coordinator.blocker? node.producers = none ∧
      (coordinator.hasInputs node.producers &&
        coordinator.stagesFinished (plan.graph.stageDeps node.stage)) = false := by
  unfold verdict at waits
  split at waits
  · cases waits
  · rename_i unblocked
    refine ⟨unblocked, ?_⟩
    split at waits
    · cases waits
    · split at waits
      · cases waits
      · rename_i notReady
        exact Bool.eq_false_iff.mpr notReady

/-- A pending task that no visit moves waits for a producer or for a stage. -/
theorem Quiet.waits (quiet : first.Quiet plan) {position : Nat} {mode : Mode} {node : TaskNode}
    (takesPart : plan.mode? position = some mode)
    (isNode : plan.graph.nodes[position]? = some node)
    (pending : first.state? position = some .pending) :
    first.blocker? node.producers = none ∧
      (first.hasInputs node.producers && first.stagesFinished (plan.graph.stageDeps node.stage)) =
        false := by
  have unmoved := quiet position (List.getElem?_eq_some_iff.mp isNode).1
  rw [visit, takesPart, isNode] at unmoved
  dsimp only at unmoved
  rw [if_pos pending] at unmoved
  cases decided : first.verdict plan node with
  | wait => exact verdict_wait decided
  | start =>
    rw [decided] at unmoved
    cases congrArg Prod.snd unmoved
  | abort error =>
    rw [decided] at unmoved
    cases congrArg Prod.snd unmoved

/-- A task that takes part has ended if it is not pending and nothing is handed out. -/
theorem Coherent.ended (coherent : first.Coherent plan) (idle : first.running = [])
    {position : Nat} (takesPart : (plan.mode? position).isSome)
    (notPending : first.state? position ≠ some .pending) :
    ∃ state, first.state? position = some state ∧ state.isTerminal = true := by
  rw [← coherent.takesPart, Option.isSome_iff_exists] at takesPart
  obtain ⟨state, here⟩ := takesPart
  refine ⟨state, here, ?_⟩
  have notRunning : first.state? position ≠ some .running := by
    intro isRunning
    have member := (coherent.running position).mpr isRunning
    rw [idle] at member
    cases member
  cases state with
  | pending => exact absurd here notPending
  | running => exact absurd here notRunning
  | skipped | succeeded | failed | aborted => rfl

/-- Producers that have ended and block nothing succeeded. -/
theorem hasInputs_of_ended {coordinator : Coordinator} {producers : List Nat}
    (unblocked : coordinator.blocker? producers = none)
    (ended : ∀ producer ∈ producers,
      ∃ state, coordinator.state? producer = some state ∧ state.isTerminal = true) :
    coordinator.hasInputs producers = true := by
  rw [hasInputs, List.all_eq_true]
  intro producer member
  obtain ⟨state, here, terminal⟩ := ended producer member
  have notBlocker := List.find?_eq_none.mp unblocked producer member
  simp only [here, terminal, Bool.true_and, Bool.not_eq_true', Bool.not_eq_false] at notBlocker
  simp only [here, notBlocker]

/-- Stages whose tasks have all ended are finished. -/
theorem Coherent.stagesFinished (coherent : first.Coherent plan) {stages : List Nat}
    (inside : ∀ stage ∈ stages, stage < plan.graph.stages.length)
    (ended : ∀ task, plan.graph.stageOf task ∈ stages → (plan.mode? task).isSome →
      ∃ state, first.state? task = some state ∧ state.isTerminal = true) :
    first.stagesFinished stages = true := by
  rw [Coordinator.stagesFinished, List.all_eq_true]
  intro stage member
  have noneOpen : first.openTasks plan stage = ∅ := by
    rw [Finset.eq_empty_iff_forall_notMem]
    intro task isOpen
    obtain ⟨_, rfl, state, here, notEnded⟩ := mem_openTasks.mp isOpen
    have takesPart : (plan.mode? task).isSome := by
      rw [← coherent.takesPart, here, Option.isSome_some]
    obtain ⟨_, here', terminal⟩ := ended task member takesPart
    cases here.symm.trans here'
    cases notEnded.symm.trans terminal
  rw [coherent.unfinished stage (inside stage member), noneOpen]
  rfl

/-- If no task is handed out and none can be handed out or abandoned, no task is pending. -/
theorem Coherent.not_pending (sound : plan.Sound) (coherent : first.Coherent plan)
    (quiet : first.Quiet plan) (idle : first.running = []) (position : Nat) :
    first.state? position ≠ some .pending := by
  -- By induction on the stage, and inside a stage on the position.
  generalize ofStage : plan.graph.stageOf position = stage
  induction stage using Nat.strongRecOn generalizing position with
  | ind stage earlierStages =>
    induction position using Nat.strongRecOn with
    | ind position earlierTasks =>
      intro pending
      have takesPart : (plan.mode? position).isSome := by
        rw [← coherent.takesPart, pending, Option.isSome_some]
      obtain ⟨mode, isMode⟩ := Option.isSome_iff_exists.mp takesPart
      obtain ⟨node, isNode⟩ := sound.isNode takesPart
      obtain ⟨unblocked, waits⟩ := quiet.waits isMode isNode pending
      have nodeStage : node.stage = stage := (Graph.stageOf_eq isNode).symm.trans ofStage
      have inputs : first.hasInputs node.producers = true := by
        refine hasInputs_of_ended unblocked fun producer member => ?_
        obtain ⟨before, source, isSource, ordered⟩ := sound.formed.producer_spec isNode member
        refine coherent.ended idle
          (sound.closed takesPart (Graph.mem_producersOf.mpr ⟨node, isNode, member⟩)) ?_
        rw [nodeStage, ← Graph.stageOf_eq isSource] at ordered
        rcases Nat.lt_or_eq_of_le ordered with earlier | same
        · exact earlierStages _ earlier producer rfl
        · exact earlierTasks producer before same
      have earlier : ∀ other ∈ plan.graph.stageDeps node.stage, other < stage := by
        intro other member
        rw [Graph.stageDeps, nodeStage] at member
        exact List.mem_range.mp (List.mem_filter.mp member).1
      have stages : first.stagesFinished (plan.graph.stageDeps node.stage) = true := by
        refine coherent.stagesFinished (fun other member => ?_) fun task member takesPart => ?_
        · exact Nat.lt_trans (earlier other member) (nodeStage ▸ sound.formed.stage_lt isNode)
        · exact coherent.ended idle takesPart (earlierStages _ (earlier _ member) task rfl)
      rw [inputs, stages] at waits
      cases waits

/-- Does the loop of the coordinator end here? No task is handed out after a pass that changed
nothing. -/
def Exits (plan : RunPlan) (coordinator : Coordinator) : Prop :=
  (coordinator.pass plan).2 = false ∧ coordinator.running = []

/-- Where the loop ends, every task that takes part has ended. -/
theorem Coherent.ended_of_exits (sound : plan.Sound) (coherent : first.Coherent plan)
    (exits : first.Exits plan) {position : Nat} (takesPart : (plan.mode? position).isSome) :
    ∃ state, first.state? position = some state ∧ state.isTerminal = true :=
  coherent.ended exits.2 takesPart
    (coherent.not_pending sound (quiet_of_pass exits.1).1 exits.2 position)

/-- Any result may come back for any task that is handed out. -/
def anyResult : Admits := fun _ _ _ => True

/-- The books of a run: the reports, the accounts and the events agree. -/
structure Balanced (plan : RunPlan) (events : List Event) (coordinator : Coordinator) : Prop where
  /-- The count of a stage is the number of its tasks that have not ended. -/
  unfinished : ∀ stage < plan.graph.stages.length,
    coordinator.unfinished[stage]? = some (coordinator.openTasks plan stage).card
  /-- When a task ends, the count of its stage goes down by one, and it was not zero. -/
  counted : ∀ {event : Event} {next : Coordinator}, Move plan anyResult coordinator event next →
    event.isStart = false → ∃ count,
      coordinator.unfinished[plan.graph.stageOf event.position]? = some (count + 1) ∧
        next.unfinished[plan.graph.stageOf event.position]? = some count
  /-- As many tasks are handed out as are running. -/
  running : coordinator.running.length = (coordinator.tasksIn plan .running).card
  /-- A task is handed out at most once, and comes back once unless it is still running. -/
  once : ∀ position, Event.startsOf position events ≤ 1 ∧
    Event.startsOf position events = Event.finishesOf position events +
      if coordinator.state? position = some .running then 1 else 0
  /-- Where the loop ends, every task that takes part has ended, and came back if it was handed
  out. -/
  ended : coordinator.Exits plan → ∀ position, (plan.mode? position).isSome →
    (∃ state, coordinator.state? position = some state ∧ state.isTerminal = true) ∧
      Event.startsOf position events = Event.finishesOf position events

theorem Coherent.running_card (sound : plan.Sound) (coherent : first.Coherent plan) :
    first.running.length = (first.tasksIn plan .running).card := by
  have tasks : first.tasksIn plan .running = (first.running.map (·.position)).toFinset := by
    ext position
    rw [mem_tasksIn, List.mem_toFinset, coherent.running]
    exact ⟨fun here => here.2, fun here => ⟨coherent.inside sound here, here⟩⟩
  rw [tasks, List.toFinset_card_of_nodup coherent.distinct, List.length_map]

/-- After any moves, with any tasks coming back in any order and with any results, the books of the
coordinator balance, and no task is left behind where its loop ends. -/
theorem balanced_of_path {config : RunConfig} {graph : Graph} (built : graph.Built)
    (plans : config.Plans graph plan) {events : List Event}
    (path : Path plan anyResult plan.start events last) : Balanced plan events last := by
  have sound := plans.sound built
  have coherent := path.coherent sound
  have recorded := path.recorded sound
  have once (position : Nat) : Event.startsOf position events ≤ 1 ∧
      Event.startsOf position events = Event.finishesOf position events +
        if last.state? position = some .running then 1 else 0 := by
    obtain ⟨starts, finishes⟩ := recorded position
    rw [starts, finishes]
    refine ⟨Bool.toNat_le _, ?_⟩
    cases last.state? position with
    | none => rfl
    | some state => cases state <;> rfl
  refine ⟨coherent.unfinished, fun {event next} move ends => ?_, coherent.running_card sound, once,
    fun exits position takesPart => ?_⟩
  · have member := move.mem_openTasks sound coherent
    have isNode := List.getElem?_eq_getElem (mem_openTasks.mp member).1
    have isStage : plan.graph.stageOf event.position < plan.graph.stages.length := by
      rw [Graph.stageOf_eq isNode]
      exact sound.formed.stage_lt isNode
    refine ⟨(next.openTasks plan (plan.graph.stageOf event.position)).card, ?_,
      (coherent.move sound move).unfinished _ isStage⟩
    rw [coherent.unfinished _ isStage, move.openTasks coherent, event.isTerminal_after, ends,
      Bool.not_false, if_pos rfl, Finset.card_erase_add_one member]
  · obtain ⟨state, here, terminal⟩ := coherent.ended_of_exits sound exits takesPart
    refine ⟨⟨state, here, terminal⟩, ?_⟩
    have notRunning : last.state? position ≠ some .running := by
      rw [here]
      rintro same
      cases same
      cases terminal
    rw [(once position).2, if_neg notRunning, Nat.add_zero]

/-- A task that reads nothing, one that reads it, and one of a later stage that reads nothing. -/
def rawTask : Task := { name := "raw", version := "1", body := fun _ => .ok [] }

@[inherit_doc rawTask]
def sumTask : Task := { rawTask with name := "sum", inputs := rawTask.refs "load" }

@[inherit_doc rawTask]
def noteTask : Task := { rawTask with name := "note" }

/-- The second stage reads from the first, so its last task waits although it reads nothing. -/
def stagedGraph : Graph where
  stages := ["load", "report"]
  nodes := [⟨⟨"load", "raw"⟩, 0, rawTask, []⟩, ⟨⟨"report", "sum"⟩, 1, sumTask, [0]⟩,
    ⟨⟨"report", "note"⟩, 1, noteTask, []⟩]

theorem built_stagedGraph : stagedGraph.Built := by
  have load := @Graph.Built.addStage _ _ "load" .empty rfl
  have stages := @Graph.Built.addStage _ _ "report" load rfl
  have raw := @Graph.Built.add _ _ "load" rawTask stages rfl
  have sum := @Graph.Built.add _ _ "report" sumTask raw rfl
  exact @Graph.Built.add _ _ "report" noteTask sum rfl

/-- All tasks of `stagedGraph` take part. -/
def stagedPlan : RunPlan := RunConfig.fullPlan {} stagedGraph

/-- The first task fails; the one that reads it is abandoned, and the last one is handed out. -/
theorem balanced_stagedPlan :
    ∃ events last, Path stagedPlan anyResult stagedPlan.start events last ∧
      last.unfinished = [0, 1] ∧ Balanced stagedPlan events last := by
  have raw := Path.refl.tail
    (@Move.start stagedPlan anyResult stagedPlan.start 0 _ _ rfl rfl rfl rfl)
  have failed := raw.tail (@Move.finish _ _ _ _ (.error (.failed "no rows")) (.head _) trivial)
  have sum := failed.tail (@Move.abort _ _ _ 1 _ _ _ rfl rfl rfl rfl)
  have note := sum.tail (@Move.start _ _ _ 2 _ _ rfl rfl rfl rfl)
  exact ⟨_, _, note, rfl, balanced_of_path built_stagedGraph .full note⟩

end Coordinator

end TablePipeline
