import TablePipeline.Proofs.Run.Explained

/-! # Failures are contained, and timing does not matter

Where the loop of the coordinator ends, all reports are final, and their explanations leave no
choice: by induction on the position of a task, whether it was abandoned and what it came back with
depend on its producers alone. Stages and the order of the scans decide when a task is handed out,
never whether it is.

So two runs of one plan end alike, in whatever order tasks came back. A task is abandoned exactly if
something that it reads failed, and the causes that are named lead to a failure.
-/

namespace TablePipeline

/-- Following the tasks that are named as causes, does one come to a task that failed? -/
inductive RunResult.LeadsToFailure (result : RunResult) : TaskId → Prop where
  | failed {id : TaskId} {report : TaskReport} (here : result.report? id = some report)
      (failed : report.state = .failed) : result.LeadsToFailure id
  | aborted {id cause : TaskId} {report : TaskReport} (here : result.report? id = some report)
      (aborted : report.state = .aborted) (names : report.error = some (.aborted cause))
      (rest : result.LeadsToFailure cause) : result.LeadsToFailure id

namespace Coordinator

variable {plan : RunPlan} {allowed allowed' : Allowed} {first last last' : Coordinator}

/-- A task that came back has a state of success exactly if its result is one. -/
theorem isSuccess_ofResult (result : Except TaskError Materialized) :
    (TaskState.ofResult result).isSuccess = result.isOk := by
  cases result with
  | error => rfl
  | ok result =>
    rw [TaskState.ofResult]
    cases result.source <;> rfl

/-! ## Reports in the result -/

theorem Explained.id_eq {position : Nat} {node : TaskNode} {report : TaskReport}
    (explained : Explained plan allowed first position node report) : report.id = node.id := by
  cases explained with
  | @ended mode result => cases result <;> rfl
  | _ => rfl

/-- Reports are about tasks of the graph. -/
theorem Coherent.isNode (coherent : first.Coherent plan) (sound : plan.Sound) {position : Nat}
    {report : TaskReport} (here : first.report? position = some report) :
    ∃ node, plan.graph.nodes[position]? = some node := by
  have isState : first.state? position = some report.state := by rw [state?, here]; rfl
  exact ⟨_, List.getElem?_eq_getElem (coherent.inside sound isState)⟩

/-- A result lists the reports of the tasks that took part. -/
theorem mem_result {report : TaskReport} :
    report ∈ first.result.tasks ↔ ∃ position, first.report? position = some report := by
  rw [result, List.mem_mergeSort, List.mem_filterMap]
  constructor
  · rintro ⟨entry, member, rfl⟩
    obtain ⟨position, here⟩ := List.mem_iff_getElem?.mp member
    exact ⟨position, by rw [report?, here]; rfl⟩
  · rintro ⟨position, here⟩
    rw [report?, Option.join_eq_some_iff] at here
    exact ⟨some report, List.mem_of_getElem? here, rfl⟩

/-- The report of a task is found by its identity. -/
theorem report?_result (sound : plan.Sound) (coherent : first.Coherent plan)
    (reasoned : first.Reasoned plan allowed) {position : Nat} {node : TaskNode}
    (isNode : plan.graph.nodes[position]? = some node) :
    first.result.report? node.id = first.report? position := by
  have unique : ∀ report ∈ first.result.tasks, report.id = node.id →
      first.report? position = some report := by
    intro report member same
    obtain ⟨other, here⟩ := mem_result.mp member
    obtain ⟨otherNode, isOther⟩ := coherent.isNode sound here
    have named := (reasoned.explained isOther here).id_eq
    have samePosition := sound.formed.position?_id isOther
    rw [← named, same, sound.formed.position?_id isNode] at samePosition
    rw [Option.some.inj samePosition, here]
  rw [RunResult.report?]
  cases here : first.report? position with
  | none =>
    rw [List.find?_eq_none]
    intro report member same
    cases here.symm.trans (unique report member (of_decide_eq_true same))
  | some report =>
    have named := (reasoned.explained isNode here).id_eq
    cases found : first.result.tasks.find? (·.id = node.id) with
    | none =>
      have notThere := List.find?_eq_none.mp found report (mem_result.mpr ⟨position, here⟩)
      exact absurd (decide_eq_true named) notThere
    | some other =>
      have same : other.id = node.id := by simpa using List.find?_some found
      exact (unique other (List.mem_of_find?_eq_some found) same).symm.trans here

/-- What a result knows of an identity is the report of its task, if there is one. -/
theorem report?_result_cases (sound : plan.Sound) (coherent : first.Coherent plan)
    (reasoned : first.Reasoned plan allowed) {id : TaskId} {report : TaskReport}
    (here : first.result.report? id = some report) :
    ∃ position node, plan.graph.nodes[position]? = some node ∧ node.id = id ∧
      first.report? position = some report := by
  have named : report.id = id := by simpa using List.find?_some here
  obtain ⟨position, here⟩ := mem_result.mp (List.mem_of_find?_eq_some here)
  obtain ⟨node, isNode⟩ := coherent.isNode sound here
  have same := (reasoned.explained isNode here).id_eq
  exact ⟨position, node, isNode, same.symm.trans named, here⟩

theorem successful_iff : first.result.successful = true ↔
    ∀ position report, first.report? position = some report → report.state.isSuccess = true := by
  rw [RunResult.successful, List.all_eq_true]
  constructor
  · intro all position report here
    exact all report (mem_result.mpr ⟨position, here⟩)
  · intro all report member
    obtain ⟨position, here⟩ := mem_result.mp member
    exact all position report here

/-! ## Two runs of one plan -/

/-- A relation between the results of two runs. -/
abbrev Related := Except TaskError Materialized → Except TaskError Materialized → Prop

/-- Are related results successes together? -/
def Related.KeepsSuccess (related : Related) : Prop :=
  ∀ {result result'}, related result result' → result.isOk = result'.isOk

/-- Two reports end alike: both tasks were abandoned, or both came back, with related results. -/
inductive EndAlike (related : Related) :
    Option TaskReport → Option TaskReport → Prop where
  | absent : EndAlike related none none
  | abandoned (node : TaskNode) (error error' : TaskError) :
      EndAlike related (some (node.fresh.abandoned error)) (some (node.fresh.abandoned error'))
  | cameBack (node : TaskNode) {result result' : Except TaskError Materialized}
      (alike : related result result') :
      EndAlike related (some (node.fresh.finished result)) (some (node.fresh.finished result'))

/-- Where the loop ends, all reports of tasks that take part are final. -/
def Final (plan : RunPlan) (coordinator : Coordinator) : Prop :=
  ∀ position, (plan.mode? position).isSome →
    ∃ state, coordinator.state? position = some state ∧ state.isTerminal = true

theorem Final.report (final : first.Final plan) {position : Nat}
    (takesPart : (plan.mode? position).isSome) :
    ∃ report, first.report? position = some report ∧ report.state.isTerminal = true := by
  obtain ⟨state, here, terminal⟩ := final position takesPart
  rw [state?, Option.map_eq_some_iff] at here
  obtain ⟨report, here, rfl⟩ := here
  exact ⟨report, here, terminal⟩

/-- A task that takes no part has no report. -/
theorem Coherent.report?_eq_none (coherent : first.Coherent plan) {position : Nat}
    (absent : ¬(plan.mode? position).isSome) : first.report? position = none := by
  rw [← coherent.takesPart, state?, Option.isSome_map, Option.not_isSome_iff_eq_none] at absent
  exact absent

/-- A final report of a run that goes on after failures: its task was abandoned for a producer, or
came back. -/
theorem Reasoned.final_cases (reasoned : first.Reasoned plan allowed)
    (goesOn : plan.stopStageOnFailure = false) {position : Nat} {node : TaskNode}
    {report : TaskReport} (isNode : plan.graph.nodes[position]? = some node)
    (here : first.report? position = some report) (ended : report.state.isTerminal = true) :
    (∃ cause source, cause ∈ node.producers ∧ first.Lost cause ∧
        plan.graph.nodes[cause]? = some source ∧
        report = node.fresh.abandoned (.aborted source.id)) ∨
      (∃ mode result, first.hasInputs node.producers = true ∧ plan.mode? position = some mode ∧
        allowed position mode (first.reportsOf node.producers) result ∧
        report = node.fresh.finished result) := by
  cases reasoned.explained isNode here with
  | pending => cases ended
  | running => cases ended
  | aborted reads lost isSource => exact .inl ⟨_, _, reads, lost, isSource, rfl⟩
  | stopped inStopped =>
    rw [reasoned.stopped goesOn] at inStopped
    cases inStopped
  | ended inputs takesPart allows => exact .inr ⟨_, _, inputs, takesPart, allows, rfl⟩

theorem not_hasInputs_of_lost {positions : List Nat} {cause : Nat} (member : cause ∈ positions)
    (lost : first.Lost cause) : first.hasInputs positions ≠ true := by
  intro inputs
  obtain ⟨report, here, success⟩ := hasInputs_iff.mp inputs cause member
  obtain ⟨state, here', _, failed⟩ := lost
  rw [state?, here, Option.map_some, Option.some.injEq] at here'
  rw [← here', success] at failed
  cases failed

variable {related : Related}

/-- Tasks that end alike are lost together. -/
theorem EndAlike.lost (sameSuccess : related.KeepsSuccess) {position : Nat}
    (alike : EndAlike related (last.report? position) (last'.report? position)) :
    last.Lost position ↔ last'.Lost position := by
  rw [Lost, Lost, state?, state?]
  generalize last.report? position = report, last'.report? position = report' at alike
  cases alike with
  | absent => exact Iff.rfl
  | abandoned => exact Iff.rfl
  | @cameBack node result result' alike =>
    have terminal (result : Except TaskError Materialized) :=
      TaskState.isTerminal_of_cameBack (TaskState.cameBack_ofResult result)
    simp only [Option.map_some, TaskReport.state_finished, Option.some.injEq, exists_eq_left',
      terminal, isSuccess_ofResult, sameSuccess alike]

theorem EndAlike.isSuccess (sameSuccess : related.KeepsSuccess) {report report' : Option TaskReport}
    (alike : EndAlike related report report') :
    (∀ known, report = some known → known.state.isSuccess = true) ↔
      ∀ known, report' = some known → known.state.isSuccess = true := by
  cases alike with
  | absent => simp
  | abandoned => simp [TaskReport.abandoned, TaskState.isSuccess]
  | cameBack node alike =>
    simp only [Option.some.injEq, forall_eq', TaskReport.state_finished, isSuccess_ofResult,
      sameSuccess alike]

/-- Two runs of a plan end alike if related reports of producers allow related results only. -/
theorem endAlike_of_final (sound : plan.Sound) (goesOn : plan.stopStageOnFailure = false)
    (coherent : last.Coherent plan) (coherent' : last'.Coherent plan)
    (reasoned : last.Reasoned plan allowed) (reasoned' : last'.Reasoned plan allowed')
    (final : last.Final plan) (final' : last'.Final plan) (sameSuccess : related.KeepsSuccess)
    (determined : ∀ {position mode reports reports' result result'},
      plan.mode? position = some mode → List.Forall₂ (EndAlike related) reports reports' →
      allowed position mode reports result → allowed' position mode reports' result' →
      related result result')
    (position : Nat) :
    EndAlike related (last.report? position) (last'.report? position) := by
  induction position using Nat.strongRecOn with
  | ind position earlier =>
    by_cases takesPart : (plan.mode? position).isSome
    · obtain ⟨report, here, ended⟩ := final.report takesPart
      obtain ⟨report', here', ended'⟩ := final'.report takesPart
      obtain ⟨node, isNode⟩ := sound.isNode takesPart
      have alike : ∀ producer ∈ node.producers,
          EndAlike related (last.report? producer) (last'.report? producer) :=
        fun producer reads => earlier producer (sound.formed.producer_spec isNode reads).1
      rw [here, here']
      rcases reasoned.final_cases goesOn isNode here ended with
        ⟨cause, source, reads, lost, _, rfl⟩ | ⟨mode, result, inputs, isMode, allows, rfl⟩ <;>
      rcases reasoned'.final_cases goesOn isNode here' ended' with
        ⟨cause', source', reads', lost', _, rfl⟩ | ⟨mode', result', inputs', isMode', allows', rfl⟩
      · exact .abandoned node _ _
      · have lost' := ((alike cause reads).lost sameSuccess).mp lost
        exact absurd inputs' (not_hasInputs_of_lost reads lost')
      · have lost := ((alike cause' reads').lost sameSuccess).mpr lost'
        exact absurd inputs (not_hasInputs_of_lost reads' lost)
      · cases isMode.symm.trans isMode'
        refine .cameBack node (determined isMode ?_ allows allows')
        rw [reportsOf, reportsOf, List.forall₂_map_left_iff, List.forall₂_map_right_iff,
          List.forall₂_same]
        exact alike
    · rw [coherent.report?_eq_none takesPart, coherent'.report?_eq_none takesPart]
      exact .absent

/-- Where all tasks end alike, so do the reports of an identity. -/
theorem endAlike_result (sound : plan.Sound)
    (coherent : last.Coherent plan) (coherent' : last'.Coherent plan)
    (reasoned : last.Reasoned plan allowed) (reasoned' : last'.Reasoned plan allowed')
    (alike : ∀ position, EndAlike related (last.report? position) (last'.report? position))
    (id : TaskId) : EndAlike related (last.result.report? id) (last'.result.report? id) := by
  by_cases known : ∃ (position : Nat) (node : TaskNode),
      plan.graph.nodes[position]? = some node ∧ node.id = id
  · obtain ⟨position, node, isNode, rfl⟩ := known
    rw [report?_result sound coherent reasoned isNode,
      report?_result sound coherent' reasoned' isNode]
    exact alike position
  · have unknown {coordinator : Coordinator} {allowed : Allowed}
        (coherent : coordinator.Coherent plan) (reasoned : coordinator.Reasoned plan allowed) :
        coordinator.result.report? id = none := by
      rw [Option.eq_none_iff_forall_ne_some]
      intro report here
      obtain ⟨position, node, isNode, named, _⟩ :=
        report?_result_cases sound coherent reasoned here
      exact known ⟨position, node, isNode, named⟩
    rw [unknown coherent reasoned, unknown coherent' reasoned']
    exact .absent

/-- Where all tasks end alike, runs are successful together. -/
theorem successful_eq (sameSuccess : related.KeepsSuccess)
    (alike : ∀ position, EndAlike related (last.report? position) (last'.report? position)) :
    last.result.successful = last'.result.successful := by
  rw [Bool.eq_iff_iff, successful_iff, successful_iff]
  exact forall_congr' fun position => (alike position).isSuccess sameSuccess

/-- The loop ends with final reports only. -/
theorem final_of_exits (sound : plan.Sound) (coherent : first.Coherent plan)
    (exits : first.Exits plan) : first.Final plan :=
  fun _ takesPart => coherent.ended_of_exits sound exits takesPart

/-! ## Failures are contained -/

theorem lost_iff {coordinator : Coordinator} {position : Nat} :
    coordinator.Lost position ↔ coordinator.state? position = some .failed ∨
      coordinator.state? position = some .aborted := by
  constructor
  · rintro ⟨state, here, terminal, failed⟩
    cases state with
    | pending | running => cases terminal
    | skipped | succeeded => cases failed
    | failed => exact .inl here
    | aborted => exact .inr here
  · rintro (here | here)
    · exact ⟨_, here, rfl, rfl⟩
    · exact ⟨_, here, rfl, rfl⟩

/-- A task is abandoned exactly if something that it reads was lost. -/
theorem Reasoned.aborted_iff_lost (reasoned : last.Reasoned plan allowed)
    (goesOn : plan.stopStageOnFailure = false) (sound : plan.Sound) (final : last.Final plan)
    {position : Nat} (takesPart : (plan.mode? position).isSome) :
    last.state? position = some .aborted ↔
      ∃ cause ∈ plan.graph.producersOf position, last.Lost cause := by
  obtain ⟨report, here, ended⟩ := final.report takesPart
  obtain ⟨node, isNode⟩ := sound.isNode takesPart
  rw [state?, here, Option.map_some, Option.some.injEq, producersOf_eq isNode]
  rcases reasoned.final_cases goesOn isNode here ended with
    ⟨cause, source, reads, lost, _, rfl⟩ | ⟨mode, result, inputs, _, _, rfl⟩
  · exact ⟨fun _ => ⟨cause, reads, lost⟩, fun _ => rfl⟩
  · constructor
    · intro aborted
      have back := TaskState.cameBack_ofResult result
      rw [← TaskReport.state_finished node.fresh, aborted] at back
      cases back
    · rintro ⟨cause, reads, lost⟩
      exact absurd inputs (not_hasInputs_of_lost reads lost)

/-- A task is abandoned exactly if something that it reads, through any number of tasks, failed. -/
theorem Reasoned.aborted_iff (reasoned : last.Reasoned plan allowed)
    (goesOn : plan.stopStageOnFailure = false) (sound : plan.Sound) (final : last.Final plan)
    {position : Nat} (takesPart : (plan.mode? position).isSome) :
    last.state? position = some .aborted ↔
      ∃ source, plan.graph.Reads position source ∧ last.state? source = some .failed := by
  constructor
  · intro aborted
    induction position using Nat.strongRecOn with
    | ind position earlier =>
      obtain ⟨cause, reads, lost⟩ :=
        (reasoned.aborted_iff_lost goesOn sound final takesPart).mp aborted
      rcases lost_iff.mp lost with failed | aborted
      · exact ⟨cause, .single reads, failed⟩
      · obtain ⟨source, path, failed⟩ := earlier cause (sound.formed.producer_lt reads)
          (sound.closed takesPart reads) aborted
        exact ⟨source, path.head reads, failed⟩
  · rintro ⟨source, path, failed⟩
    induction path using Relation.TransGen.head_induction_on with
    | single reads =>
      exact (reasoned.aborted_iff_lost goesOn sound final takesPart).mpr
        ⟨source, reads, lost_iff.mpr (.inl failed)⟩
    | @head reader middle reads path ih =>
      have aborted := ih (sound.closed takesPart reads)
      exact (reasoned.aborted_iff_lost goesOn sound final takesPart).mpr
        ⟨middle, reads, lost_iff.mpr (.inr aborted)⟩

/-- The causes that are named lead to a failure. -/
theorem Reasoned.leadsToFailure (reasoned : last.Reasoned plan allowed)
    (goesOn : plan.stopStageOnFailure = false) (sound : plan.Sound) (coherent : last.Coherent plan)
    {position : Nat} {node : TaskNode} (isNode : plan.graph.nodes[position]? = some node)
    (lost : last.Lost position) : last.result.LeadsToFailure node.id := by
  induction position using Nat.strongRecOn generalizing node with
  | ind position earlier =>
    have named := report?_result sound coherent reasoned isNode
    obtain ⟨state, here, ended, failed⟩ := lost
    rw [state?, Option.map_eq_some_iff] at here
    obtain ⟨report, here, rfl⟩ := here
    rw [here] at named
    rcases reasoned.final_cases goesOn isNode here ended with
      ⟨cause, source, reads, lost, isSource, rfl⟩ | ⟨mode, result, inputs, _, _, rfl⟩
    · have before := (sound.formed.producer_spec isNode reads).1
      exact .aborted named rfl rfl (earlier cause before isSource lost)
    · refine .failed named ?_
      cases result with
      | error => rfl
      | ok result =>
        rw [TaskReport.state_finished, isSuccess_ofResult] at failed
        cases failed

end Coordinator

/-- What a report says apart from where outputs came from. -/
def TaskReport.outcome (report : TaskReport) :
    TaskState × Option Fingerprint × List StoredOutput :=
  (report.state, report.fingerprint, report.outputs)

/-- Failures are contained: what read no failure was handed out, and ended. -/
structure RunPlan.Contained (plan : RunPlan) (events : List Event) (result : RunResult) : Prop where
  /-- Every task that takes part has a report that is final. -/
  ended : ∀ {position : Nat} {node : TaskNode}, (plan.mode? position).isSome →
    plan.graph.nodes[position]? = some node →
    ∃ report, result.report? node.id = some report ∧ report.state.isTerminal = true
  /-- A task is abandoned exactly if something that it reads, through any number of tasks,
  failed. -/
  aborted : ∀ {position : Nat} {node : TaskNode} {report : TaskReport},
    plan.graph.nodes[position]? = some node → result.report? node.id = some report →
    (report.state = .aborted ↔ ∃ (source : Nat) (producer : TaskNode) (failed : TaskReport),
      plan.graph.Reads position source ∧ plan.graph.nodes[source]? = some producer ∧
        result.report? producer.id = some failed ∧ failed.state = .failed)
  /-- Every other task was handed out, once. -/
  started : ∀ {position : Nat} {node : TaskNode} {report : TaskReport},
    plan.graph.nodes[position]? = some node → result.report? node.id = some report →
    Event.startsOf position events = if report.state = .aborted then 0 else 1
  /-- The causes that are named lead to a failure. -/
  blamed : ∀ {id : TaskId} {report : TaskReport}, result.report? id = some report →
    report.state = .aborted → result.LeadsToFailure id

namespace Coordinator

variable {plan : RunPlan} {allowed : Allowed} {last last' : Coordinator}

theorem contained_of_final (sound : plan.Sound) (goesOn : plan.stopStageOnFailure = false)
    (coherent : last.Coherent plan) (reasoned : last.Reasoned plan allowed)
    (final : last.Final plan) {events : List Event} (recorded : Recorded events last) :
    plan.Contained events last.result := by
  have state {position : Nat} {node : TaskNode} {report : TaskReport}
      (isNode : plan.graph.nodes[position]? = some node)
      (here : last.result.report? node.id = some report) :
      last.state? position = some report.state := by
    rw [report?_result sound coherent reasoned isNode] at here
    rw [state?, here]
    rfl
  have takesPart {position : Nat} {found : TaskState}
      (here : last.state? position = some found) : (plan.mode? position).isSome := by
    rw [← coherent.takesPart, here]
    rfl
  refine ⟨fun {position node} takesPart isNode => ?_, fun {position node report} isNode here => ?_,
    fun {position node report} isNode here => ?_, fun {id report} here aborted => ?_⟩
  · obtain ⟨report, here, ended⟩ := final.report takesPart
    exact ⟨report, (report?_result sound coherent reasoned isNode).trans here, ended⟩
  · have isState := state isNode here
    have closure := reasoned.aborted_iff goesOn sound final (takesPart isState)
    rw [isState, Option.some.injEq] at closure
    rw [closure]
    constructor
    · rintro ⟨source, path, failed⟩
      have isSource := List.getElem?_eq_getElem (coherent.inside sound failed)
      rw [state?, Option.map_eq_some_iff] at failed
      obtain ⟨other, here, failed⟩ := failed
      exact ⟨source, _, other, path, isSource,
        (report?_result sound coherent reasoned isSource).trans here, failed⟩
    · rintro ⟨source, producer, other, path, isSource, here, failed⟩
      exact ⟨source, path, failed ▸ state isSource here⟩
  · have isState := state isNode here
    obtain ⟨found, isFound, ended⟩ := final position (takesPart isState)
    cases isState.symm.trans isFound
    rw [(recorded position).1, isState, Option.any_some]
    cases found : report.state with
    | pending | running => rw [found] at ended; cases ended
    | skipped | succeeded | failed | aborted => rfl
  · obtain ⟨position, node, isNode, rfl, found⟩ := report?_result_cases sound coherent reasoned here
    refine reasoned.leadsToFailure goesOn sound coherent isNode (lost_iff.mpr (.inr ?_))
    rw [state isNode here, aborted]

/-- The results of tasks are functions of the task, its mode and the outputs of its producers. -/
def computed (outcome : Nat → Mode → List (List StoredOutput) → Except TaskError Materialized) :
    Allowed := fun position mode reports result =>
  result = outcome position mode (reports.map fun report => (report.map (·.outputs)).getD [])

/-- Tasks that come back with the same result, or are both abandoned, have the same outcome. -/
theorem EndAlike.outcome_eq {report report' : Option TaskReport}
    (alike : EndAlike (· = ·) report report') :
    report.map TaskReport.outcome = report'.map TaskReport.outcome := by
  cases alike with
  | absent => rfl
  | abandoned => rfl
  | cameBack node same => rw [same]

theorem computed_unique
    {outcome : Nat → Mode → List (List StoredOutput) → Except TaskError Materialized}
    {position : Nat} {mode : Mode} {reports reports' : List (Option TaskReport)}
    {result result' : Except TaskError Materialized}
    (alike : List.Forall₂ (EndAlike (· = ·)) reports reports')
    (given : computed outcome position mode reports result)
    (given' : computed outcome position mode reports' result') : result = result' := by
  have same : reports.map (fun report => (report.map (·.outputs)).getD []) =
      reports'.map (fun report => (report.map (·.outputs)).getD []) := by
    rw [← List.forall₂_eq_eq_eq, List.forall₂_map_left_iff, List.forall₂_map_right_iff]
    refine alike.imp fun report report' alike => ?_
    have outputs := congrArg (Option.map (·.2.2)) alike.outcome_eq
    rw [Option.map_map, Option.map_map] at outputs
    exact congrArg (·.getD []) outputs
  rw [given, given', same]

/-- Whatever the order in which tasks come back, a run ends with the same outcome of every task,
and failures abort what reads them and nothing else. -/
theorem outcome_of_paths {config : RunConfig} {graph : Graph} (built : graph.Built)
    (plans : config.Plans graph plan) (goesOn : config.stopStageOnFailure = false)
    {outcome : Nat → Mode → List (List StoredOutput) → Except TaskError Materialized}
    {events events' : List Event}
    (path : Path plan (allows plan (computed outcome)) plan.start events last)
    (path' : Path plan (allows plan (computed outcome)) plan.start events' last')
    (exits : last.Exits plan) (exits' : last'.Exits plan) :
    (∀ id, (last.result.report? id).map TaskReport.outcome =
        (last'.result.report? id).map TaskReport.outcome) ∧
      last.result.successful = last'.result.successful ∧
      plan.Contained events last.result := by
  have sound := plans.sound built
  have goesOn := plans.stop_eq.trans goesOn
  have coherent := path.coherent sound
  have coherent' := path'.coherent sound
  have reasoned := path.reasoned sound
  have reasoned' := path'.reasoned sound
  have final := final_of_exits sound coherent exits
  have final' := final_of_exits sound coherent' exits'
  have sameSuccess : Related.KeepsSuccess (· = ·) := fun same => congrArg _ same
  have alike := endAlike_of_final sound goesOn coherent coherent' reasoned reasoned' final final'
    sameSuccess fun _ => computed_unique
  refine ⟨fun id => ?_, successful_eq sameSuccess alike,
    contained_of_final sound goesOn coherent reasoned final (path.recorded sound)⟩
  exact (endAlike_result sound coherent coherent' reasoned reasoned' alike id).outcome_eq

/-- A first task that fails, and others that succeed without outputs. -/
def firstFails (position : Nat) (_ : Mode) (_ : List (List StoredOutput)) :
    Except TaskError Materialized :=
  if position = 0 then .error (.failed "no rows") else .ok ⟨⟨⟨[]⟩⟩, [], .executed, false⟩

/-- The last task may come back before the one in the middle is abandoned, or after it. -/
theorem outcome_stagedPlan :
    ∃ events last events' last',
      Path stagedPlan (allows stagedPlan (computed firstFails)) stagedPlan.start events last ∧
      Path stagedPlan (allows stagedPlan (computed firstFails)) stagedPlan.start events' last' ∧
      last.Exits stagedPlan ∧ last'.Exits stagedPlan ∧
      events.map Event.isStart ≠ events'.map Event.isStart ∧
      (∀ id, (last.result.report? id).map TaskReport.outcome =
        (last'.result.report? id).map TaskReport.outcome) ∧
      last.result.successful = last'.result.successful ∧
      stagedPlan.Contained events last.result := by
  have raw := Path.refl.tail
    (@Move.start stagedPlan (allows stagedPlan (computed firstFails)) stagedPlan.start 0 _ _
      rfl rfl rfl rfl)
  have failed := raw.tail (@Move.finish _ _ _ _ _ (.head _) rfl)
  have sum := failed.tail (@Move.abort _ _ _ 1 _ _ _ rfl rfl rfl rfl)
  have note := sum.tail (@Move.start _ _ _ 2 _ _ rfl rfl rfl rfl)
  have done := note.tail (@Move.finish _ _ _ _ _ (.head _) rfl)
  have note' := failed.tail (@Move.start _ _ _ 2 _ _ rfl rfl rfl rfl)
  have done' := note'.tail (@Move.finish _ _ _ _ _ (.head _) rfl)
  have sum' := done'.tail (@Move.abort _ _ _ 1 _ _ _ rfl rfl rfl rfl)
  exact ⟨_, _, _, _, done, sum', ⟨rfl, rfl⟩, ⟨rfl, rfl⟩, by decide,
    outcome_of_paths built_stagedGraph .full rfl done sum' ⟨rfl, rfl⟩ ⟨rfl, rfl⟩⟩

end Coordinator

end TablePipeline
