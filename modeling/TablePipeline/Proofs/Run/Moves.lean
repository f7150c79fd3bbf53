import Mathlib.Data.Finset.Card
import TablePipeline.Proofs.Run.Plan

/-! # The moves of a coordinator

Three things happen to a task: it is handed out, it is abandoned, and it comes back. A move is one
such event; a path is any sequence of moves. The scans of the coordinator are paths, so whatever is
shown for all paths holds for the runs that the program makes, whichever task comes back first and
with whatever result.

A path may look at a task at any moment and in any order, while the coordinator looks at all tasks
in turn and then waits. What results may come back is a parameter: a relation between the
coordinator, the task that was handed out, and the result.
-/

namespace TablePipeline

/-- Something that happens to a task. -/
inductive Event where
  | start (started : StartedTask)
  | abort (position : Nat) (error : TaskError)
  | finish (position : Nat) (result : Except TaskError Materialized)

namespace Event

/-- The task that an event is about. -/
def position : Event → Nat
  | start started => started.position
  | abort position _ => position
  | finish position _ => position

/-- What an event makes of the report of its task. -/
def change : Event → TaskReport → TaskReport
  | start _ => TaskReport.started
  | abort _ error => (·.abandoned error)
  | finish _ result => (·.finished result)

/-- Is a task handed out? -/
def isStart : Event → Bool
  | start _ => true
  | _ => false

/-- Does a task come back? -/
def isFinish : Event → Bool
  | finish .. => true
  | _ => false

end Event

namespace Coordinator

/-- Which results may come back for a task that was handed out. -/
abbrev Admits := Coordinator → StartedTask → Except TaskError Materialized → Prop

/-- The coordinator after a task is handed out. -/
def handOut (coordinator : Coordinator) (started : StartedTask) : Coordinator :=
  { coordinator.modifyReport started.position (·.started) with
    running := coordinator.running ++ [started] }

/-- The coordinator after a task is abandoned. -/
def abandon (coordinator : Coordinator) (position stage : Nat) (error : TaskError) : Coordinator :=
  (coordinator.modifyReport position (·.abandoned error)).finishOne stage

/-- One thing that may happen next. -/
inductive Move (plan : RunPlan) (admits : Admits) (coordinator : Coordinator) :
    Event → Coordinator → Prop where
  | start {position : Nat} {mode : Mode} {node : TaskNode}
      (takesPart : plan.mode? position = some mode)
      (isNode : plan.graph.nodes[position]? = some node)
      (pending : coordinator.state? position = some .pending)
      (ready : coordinator.verdict plan node = .start) :
      Move plan admits coordinator (.start ⟨position, mode, coordinator.inputsOf node⟩)
        (coordinator.handOut ⟨position, mode, coordinator.inputsOf node⟩)
  | abort {position : Nat} {mode : Mode} {node : TaskNode} {error : TaskError}
      (takesPart : plan.mode? position = some mode)
      (isNode : plan.graph.nodes[position]? = some node)
      (pending : coordinator.state? position = some .pending)
      (doomed : coordinator.verdict plan node = .abort error) :
      Move plan admits coordinator (.abort position error)
        (coordinator.abandon position node.stage error)
  | finish {started : StartedTask} {result : Except TaskError Materialized}
      (running : started ∈ coordinator.running) (admitted : admits coordinator started result) :
      Move plan admits coordinator (.finish started.position result)
        (coordinator.complete plan started.position result)

/-- Any number of moves, with what happened on the way. -/
inductive Path (plan : RunPlan) (admits : Admits) (first : Coordinator) :
    List Event → Coordinator → Prop where
  | refl : Path plan admits first [] first
  | tail {events : List Event} {event : Event} {middle last : Coordinator}
      (path : Path plan admits first events middle) (move : Move plan admits middle event last) :
      Path plan admits first (events ++ [event]) last

variable {plan : RunPlan} {admits : Admits} {first middle last : Coordinator}

theorem Path.trans {events more : List Event} (early : Path plan admits first events middle)
    (late : Path plan admits middle more last) : Path plan admits first (events ++ more) last := by
  induction late with
  | refl => rwa [List.append_nil]
  | tail _ move ih =>
    rw [← List.append_assoc]
    exact ih.tail move

/-! ## What a move changes -/

theorem report?_modifyReport (coordinator : Coordinator) (position other : Nat)
    (change : TaskReport → TaskReport) :
    (coordinator.modifyReport position change).report? other =
      if other = position then (coordinator.report? other).map change
      else coordinator.report? other := by
  rw [report?, report?, modifyReport, List.getElem?_modify]
  by_cases same : other = position
  · subst same
    rw [if_pos rfl]
    cases coordinator.reports[other]? with
    | none => rfl
    | some report => simp
  · rw [if_neg same]
    cases coordinator.reports[other]? with
    | none => rfl
    | some report => simp [Ne.symm same]

/-- A task that comes back is no more handed out and is done with in its stage; only whether the
stage is stopped hangs on how it went. -/
theorem complete_eq (plan : RunPlan) (coordinator : Coordinator) (position : Nat)
    (result : Except TaskError Materialized) :
    coordinator.complete plan position result =
      { (coordinator.modifyReport position (·.finished result)).finishOne
          (plan.graph.stageOf position) with
        running := coordinator.running.filter (·.position ≠ position)
        stopped := if !result.isOk && plan.stopStageOnFailure then
            plan.graph.stageOf position :: coordinator.stopped
          else coordinator.stopped } := by
  unfold complete
  cases result with
  | ok => rfl
  | error => cases plan.stopStageOnFailure <;> rfl

/-- A move changes the reports at the task that it is about. -/
theorem Move.reports {event : Event} (move : Move plan admits first event last) :
    last.reports = first.reports.modify event.position (·.map event.change) := by
  cases move with
  | start => rfl
  | abort => rfl
  | finish =>
    rw [complete_eq]
    rfl

/-- A move changes the report of the task that it is about, and no other. -/
theorem Move.report? {event : Event} (move : Move plan admits first event last) (position : Nat) :
    last.report? position =
      if position = event.position then (first.report? position).map event.change
      else first.report? position := by
  rw [← report?_modifyReport, Coordinator.report?, move.reports]
  rfl

theorem Move.report?_of_ne {event : Event} (move : Move plan admits first event last)
    {position : Nat} (other : position ≠ event.position) :
    last.report? position = first.report? position := by
  rw [move.report?, if_neg other]

/-! ## The scans are paths -/

/-- A visit is a move, or leaves everything as it is. -/
theorem visit_cases (plan : RunPlan) (admits : Admits) (coordinator : Coordinator)
    (position : Nat) :
    visit plan coordinator position = (coordinator, false) ∨
      ∃ event next, visit plan coordinator position = (next, true) ∧ event.isFinish = false ∧
        Move plan admits coordinator event next := by
  unfold visit
  split
  · rename_i mode node takesPart isNode
    split
    · rename_i pending
      split
      · rename_i error doomed
        exact .inr ⟨_, _, rfl, rfl, .abort takesPart isNode pending doomed⟩
      · rename_i ready
        exact .inr ⟨_, _, rfl, rfl, .start takesPart isNode pending ready⟩
      · exact .inl rfl
    · exact .inl rfl
  · exact .inl rfl

/-- One visit of a pass, which keeps in mind whether anything changed. -/
def look (plan : RunPlan) (state : Coordinator × Bool) (position : Nat) : Coordinator × Bool :=
  ((visit plan state.1 position).1, state.2 || (visit plan state.1 position).2)

theorem pass_eq_foldl (plan : RunPlan) (coordinator : Coordinator) :
    coordinator.pass plan = (List.range plan.graph.size).foldl (look plan) (coordinator, false) :=
  rfl

/-- Visits in turn are a path without a task that comes back. The path is empty exactly if the
visits report no change. -/
theorem visits_path (plan : RunPlan) (admits : Admits) (positions : List Nat)
    (state : Coordinator × Bool) :
    ∃ events, Path plan admits state.1 events (positions.foldl (look plan) state).1 ∧
      (∀ event ∈ events, event.isFinish = false) ∧
      (positions.foldl (look plan) state).2 = (state.2 || !events.isEmpty) ∧
      (events = [] → (positions.foldl (look plan) state).1 = state.1 ∧
        ∀ position ∈ positions, visit plan state.1 position = (state.1, false)) := by
  induction positions generalizing state with
  | nil => exact ⟨[], .refl, nofun, by simp, fun _ => ⟨rfl, nofun⟩⟩
  | cons position rest ih =>
    rw [List.foldl_cons]
    obtain ⟨events, path, scans, report, quiet⟩ := ih (look plan state position)
    rcases visit_cases plan admits state.1 position with idle | ⟨event, next, visited, isScan, move⟩
    · have unchanged : look plan state position = state := by
        rw [look, idle, Bool.or_false]
      rw [unchanged] at path report quiet ⊢
      refine ⟨events, path, scans, report, fun none => ⟨(quiet none).1, fun other member => ?_⟩⟩
      rcases List.mem_cons.mp member with rfl | member
      · exact idle
      · exact (quiet none).2 other member
    · have changed : look plan state position = (next, true) := by
        rw [look, visited, Bool.or_true]
      rw [changed] at path report ⊢
      refine ⟨event :: events, (Path.refl.tail move).trans path, ?_, ?_, nofun⟩
      · intro other member
        rcases List.mem_cons.mp member with rfl | member
        · exact isScan
        · exact scans other member
      · rw [report]
        simp

/-- A pass is a path without a task that comes back; if it changes nothing, no task can be handed
out or abandoned. -/
theorem pass_path (plan : RunPlan) (admits : Admits) (coordinator : Coordinator) :
    ∃ events, Path plan admits coordinator events (coordinator.pass plan).1 ∧
      (∀ event ∈ events, event.isFinish = false) ∧
      (coordinator.pass plan).2 = !events.isEmpty ∧
      (events = [] → (coordinator.pass plan).1 = coordinator ∧ ∀ position < plan.graph.size,
        visit plan coordinator position = (coordinator, false)) := by
  rw [pass_eq_foldl]
  obtain ⟨events, path, scans, report, quiet⟩ :=
    visits_path plan admits (List.range plan.graph.size) (coordinator, false)
  refine ⟨events, path, scans, report, fun none => ⟨(quiet none).1, fun position inside => ?_⟩⟩
  exact (quiet none).2 position (List.mem_range.mpr inside)

/-- Can no task be handed out or abandoned now? -/
def Quiet (plan : RunPlan) (coordinator : Coordinator) : Prop :=
  ∀ position < plan.graph.size, visit plan coordinator position = (coordinator, false)

/-- A pass that changes nothing shows that the coordinator is quiet. -/
theorem quiet_of_pass {coordinator : Coordinator} (unchanged : (coordinator.pass plan).2 = false) :
    coordinator.Quiet plan ∧ (coordinator.pass plan).1 = coordinator := by
  obtain ⟨events, _, _, report, quiet⟩ := pass_path plan (fun _ _ _ => True) coordinator
  rw [unchanged] at report
  have none : events = [] := by simpa using report
  exact ⟨(quiet none).2, (quiet none).1⟩

end Coordinator

end TablePipeline
