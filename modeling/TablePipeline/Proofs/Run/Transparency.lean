import TablePipeline.Proofs.Run.Truthful

/-! # The cache is transparent

Whatever a store went through, it is faithful, if all that ever wrote to it were runs of graphs
whose tasks are deterministic. A run on such a store ends like a run on an empty one: the same tasks
succeed, and each of them reports what its body gives on the outputs that its producers report.
-/

namespace TablePipeline

/-- Others may drop an artifact at any time. -/
def evicts : Interference := fun store next => ∃ address, next = (store.evict address).1

/-- A store that was empty once, after any runs of graphs whose tasks are deterministic, each as far
as it came, with the jobs that were materialised. Artifacts may have been dropped at any time. -/
inductive History (bodies : Bodies) : List Job → Workshop → Prop where
  | empty : History bodies [] {}
  | run {past jobs : List Job} {opened closed : Workshop} {config : RunConfig} {graph : Graph}
      {plan : RunPlan} {events : List Event} {last : Coordinator}
      (history : History bodies past opened) (built : graph.Built) (lawful : graph.Lawful bodies)
      (plans : config.Plans graph plan)
      (session : Session plan evicts opened events jobs last closed) :
      History bodies (past ++ jobs) closed
  | evict {past : List Job} {workshop : Workshop} (history : History bodies past workshop)
      (address : Address) :
      History bodies past { workshop with store := (workshop.store.evict address).1 }

theorem faithful_of_evicts {bodies : Bodies} {all : Set Job} {store next : Store}
    (dropped : evicts store next) (faithful : store.Faithful bodies all) :
    next.Faithful bodies all := by
  obtain ⟨address, rfl⟩ := dropped
  exact faithful.evict address

/-- A store is faithful through its whole history. -/
theorem History.faithful {bodies : Bodies} {all : Set Job} {past : List Job} {workshop : Workshop}
    (history : History bodies past workshop) (collisionless : Collisionless all)
    (known : ∀ job ∈ past, job ∈ all) : workshop.store.Faithful bodies all := by
  induction history with
  | empty => exact Store.faithful_empty
  | run _ built lawful plans session ih =>
    have before := ih fun job member => known job (List.mem_append_left _ member)
    rw [← plans.graph_eq] at lawful
    exact (session.truthful (plans.sound built) lawful collisionless
      (fun job member => known job (List.mem_append_right _ member)) faithful_of_evicts before).2
  | evict _ address ih => exact (ih known).evict address

/-- What a result says apart from where outputs came from. -/
def Materialized.seen (materialized : Materialized) : Fingerprint × List StoredOutput :=
  (materialized.fingerprint, materialized.outputs)

/-- What a report says about what was served: whether the task succeeded, and with what. -/
def TaskReport.served (report : TaskReport) : Bool × Option Fingerprint × List StoredOutput :=
  (report.state.isSuccess, report.fingerprint, report.outputs)

namespace Coordinator

/-- Results that are both errors, or both serve the same. -/
def sameServed : Related := fun result result' =>
  result.toOption.map Materialized.seen = result'.toOption.map Materialized.seen

theorem sameServed_keepsSuccess : sameServed.KeepsSuccess := by
  intro result result' same
  cases result <;> cases result'
  · rfl
  · cases same
  · cases same
  · rfl

theorem served_finished (node : TaskNode) (result : Except TaskError Materialized) :
    (node.fresh.finished result).served =
      ((result.toOption.map Materialized.seen).isSome,
        (result.toOption.map Materialized.seen).map Prod.fst,
        ((result.toOption.map Materialized.seen).map Prod.snd).getD []) := by
  cases result with
  | error => rfl
  | ok materialized =>
    obtain ⟨fingerprint, outputs, source, inconsistent⟩ := materialized
    cases source <;> rfl

theorem EndAlike.served_eq {report report' : Option TaskReport}
    (alike : EndAlike sameServed report report') :
    report.map TaskReport.served = report'.map TaskReport.served := by
  cases alike with
  | absent => rfl
  | abandoned => rfl
  | @cameBack node result result' same =>
    rw [Option.map_some, Option.map_some, served_finished, served_finished, same]

/-- The inputs of a task depend on what its producers served. -/
theorem inputsFrom_eq (node : TaskNode) {reports reports' : List (Option TaskReport)}
    (alike : List.Forall₂ (EndAlike sameServed) reports reports') :
    node.inputsFrom reports = node.inputsFrom reports' := by
  have served : reports.map (Option.map TaskReport.served) =
      reports'.map (Option.map TaskReport.served) := by
    rw [← List.forall₂_eq_eq_eq, List.forall₂_map_left_iff, List.forall₂_map_right_iff]
    exact alike.imp fun _ _ => EndAlike.served_eq
  have outputs (reports : List (Option TaskReport)) : reports.map (Option.map TaskReport.outputs) =
      (reports.map (Option.map TaskReport.served)).map (Option.map (·.2.2)) := by
    rw [List.map_map, Option.map_comp_map]
    rfl
  exact TaskNode.inputsFrom_congr rfl (by rw [outputs, outputs, served])

/-- Honest results of one job serve the same, unless the cache alone decides whether there is
one. -/
theorem sameServed_of_honest {job : Job} {mode : Mode}
    {result result' : Except TaskError Materialized} (honest : job.Honest mode result)
    (honest' : job.Honest mode result') (looks : mode ≠ .cacheOnly) :
    sameServed result result' := by
  have succeeds := (honest.succeeds looks).trans (honest'.succeeds looks).symm
  cases result with
  | error =>
    cases result' with
    | error => rfl
    | ok => cases succeeds
  | ok materialized =>
    cases result' with
    | error => cases succeeds
    | ok materialized' =>
      obtain ⟨fingerprint, given⟩ := honest.outputs rfl
      obtain ⟨fingerprint', given'⟩ := honest'.outputs rfl
      have outputs := Except.ok.inj (given.symm.trans given')
      have seen : materialized.seen = materialized'.seen :=
        Prod.ext (fingerprint.trans fingerprint'.symm) outputs
      exact congrArg some seen

/-- Truthful results of a full run serve the same if those of the producers do. -/
theorem truthful_unique {bodies : Bodies} {jobs : Set Job} {config : RunConfig} {graph : Graph}
    {position : Nat} {mode : Mode} {reports reports' : List (Option TaskReport)}
    {result result' : Except TaskError Materialized}
    (isMode : (config.fullPlan graph).mode? position = some mode)
    (alike : List.Forall₂ (EndAlike sameServed) reports reports')
    (truth : truthful bodies jobs (config.fullPlan graph) position mode reports result)
    (truth' : truthful bodies jobs (config.fullPlan graph) position mode reports' result') :
    sameServed result result' := by
  rw [RunConfig.mode?_fullPlan] at isMode
  split at isMode
  · rename_i inside
    have isNode := List.getElem?_eq_getElem inside
    obtain ⟨honest, _⟩ := truth _ isNode
    obtain ⟨honest', _⟩ := truth' _ isNode
    rw [RunPlan.jobOf, ← inputsFrom_eq _ alike] at honest'
    refine sameServed_of_honest honest honest' ?_
    rintro rfl
    split at isMode <;> cases isMode
  · cases isMode

end Coordinator

/-- A full run ends the same on a store with any history as on an empty one: the same tasks succeed,
with the same fingerprints and outputs, and these are what the bodies of the tasks give on what
their producers report. -/
theorem served_of_sessions {bodies : Bodies} {past : List Job} {opened : Workshop}
    (history : History bodies past opened) {config : RunConfig} {graph : Graph}
    (built : graph.Built) (lawful : graph.Lawful bodies)
    (goesOn : config.stopStageOnFailure = false) {events events' : List Event} {jobs jobs' : List Job} {last last' : Coordinator}
    {closed closed' : Workshop}
    (warm : Session (config.fullPlan graph) evicts opened events jobs last closed)
    (cold : Session (config.fullPlan graph) evicts {} events' jobs' last' closed')
    (exits : last.Exits (config.fullPlan graph)) (exits' : last'.Exits (config.fullPlan graph))
    (collisionless : Collisionless {job | job ∈ past ∨ job ∈ jobs ∨ job ∈ jobs'}) :
    (∀ id, (last.result.report? id).map TaskReport.served =
        (last'.result.report? id).map TaskReport.served) ∧
      ∀ {position : Nat} {node : TaskNode} {report : TaskReport},
        graph.nodes[position]? = some node → last.result.report? node.id = some report →
        report.state.isSuccess = true →
        let job := (config.fullPlan graph).jobOf node (last.reportsOf node.producers)
        report.fingerprint = some job.fingerprint ∧ job.given = .ok report.outputs := by
  have plans : config.Plans graph (config.fullPlan graph) := .full
  have sound := plans.sound built
  have faithful := history.faithful collisionless fun _ => .inl
  obtain ⟨path, _⟩ := warm.truthful sound lawful collisionless (fun _ member => .inr (.inl member))
    faithful_of_evicts faithful
  obtain ⟨path', _⟩ := cold.truthful sound lawful collisionless (fun _ member => .inr (.inr member))
    faithful_of_evicts Store.faithful_empty
  have coherent := path.coherent sound
  have coherent' := path'.coherent sound
  have reasoned := path.reasoned sound
  have reasoned' := path'.reasoned sound
  have alike := Coordinator.endAlike_of_final sound goesOn coherent coherent' reasoned reasoned'
    (Coordinator.final_of_exits sound coherent exits)
    (Coordinator.final_of_exits sound coherent' exits')
    Coordinator.sameServed_keepsSuccess Coordinator.truthful_unique
  refine ⟨fun id => ?_, fun {position node report} isNode here success => ?_⟩
  · have same := Coordinator.endAlike_result sound coherent coherent' reasoned reasoned' alike id
    exact same.served_eq
  · rw [Coordinator.report?_result sound coherent reasoned isNode] at here
    cases reasoned.explained isNode here with
    | @ended mode result inputs takesPart allows =>
      obtain ⟨honest, _⟩ := allows node isNode
      cases result with
      | error => cases success
      | ok materialized =>
        obtain ⟨fingerprint, given⟩ := honest.outputs rfl
        exact ⟨congrArg some fingerprint, given⟩
    | _ => cases success

theorem Collisionless.mono {jobs more : Set Job} (collisionless : Collisionless more)
    (fewer : jobs ⊆ more) : Collisionless jobs := by
  refine ⟨collisionless.digests.mono ?_, fun job known => collisionless.fits job (fewer known)⟩
  rintro bytes ⟨job, known, member⟩
  exact ⟨job, fewer known, member⟩

/-- A task that reads nothing and gives one blob. -/
def byteTask : Task where
  name := "n"
  version := "1"
  declared := [⟨"n", .blob⟩]
  body := fun _ => .ok [.blob ⟨"n", [7]⟩]

@[inherit_doc byteTask]
def byteBodies : Bodies := fun _ _ => .ok [.blob ⟨"n", [7]⟩]

/-- A graph with `byteTask` only. -/
def byteGraph : Graph where
  stages := ["in"]
  nodes := [⟨⟨"in", "n"⟩, 0, byteTask, []⟩]

theorem built_byteGraph : byteGraph.Built := by
  have stages := @Graph.Built.addStage _ _ "in" .empty rfl
  exact @Graph.Built.add _ _ "in" byteTask stages rfl

/-- The one job of `byteGraph`. -/
def byteJob : Job := ⟨⟨"in", "n"⟩, "in", byteTask, []⟩

theorem collisionless_byteJob : Collisionless {byteJob} := by
  have differ : (byteJob.hashed.map Digest.of).Nodup := by
    refine Digest.nodup_of_firsts [104, 43] (.cons ?_ (.cons ?_ .nil)) (by decide)
    all_goals decide +kernel
  have fit : ∀ bytes ∈ byteJob.hashed, bytes.Fits := by decide +kernel
  constructor
  · rintro bytes ⟨_, rfl, member⟩ other ⟨_, rfl, member'⟩ same
    exact List.inj_on_of_nodup_map differ member member' same
  · rintro job rfl
    exact fit

/-- A run, and another one after the artifact of the first was dropped. -/
theorem served_byteGraph :
    ∃ past opened events jobs last closed events' jobs' last' closed',
      History byteBodies past opened ∧
      Session (RunConfig.fullPlan {} byteGraph) evicts opened events jobs last closed ∧
      Session (RunConfig.fullPlan {} byteGraph) evicts {} events' jobs' last' closed' ∧
      last.Exits (RunConfig.fullPlan {} byteGraph) ∧
      last'.Exits (RunConfig.fullPlan {} byteGraph) ∧
      RunConfig.run {} byteGraph opened = (last.result, closed) ∧
      RunConfig.run {} byteGraph {} = (last'.result, closed') ∧
      ∀ id, (last.result.report? id).map TaskReport.served =
        (last'.result.report? id).map TaskReport.served := by
  have plans : ({} : RunConfig).Plans byteGraph (RunConfig.fullPlan {} byteGraph) := .full
  have sound := plans.sound built_byteGraph
  have lawful : byteGraph.Lawful byteBodies := by
    intro node member
    rw [List.mem_singleton.mp member]
    exact ⟨rfl, fun _ _ => rfl⟩
  have single {opened closed : Workshop} {events : List Event} {jobs : List Job}
      {last : Coordinator}
      (session : Session (RunConfig.fullPlan {} byteGraph) evicts opened events jobs last closed) :
      ∀ job ∈ jobs, job = byteJob := by
    intro job member
    obtain ⟨node, isNode, reports, rfl⟩ := session.mem_jobs sound member
    rw [List.mem_singleton.mp isNode]
    rfl
  obtain ⟨_, _, _, _, first, _, _⟩ := RunPlan.run_session sound evicts {}
  have history := (History.empty.run built_byteGraph lawful plans first).evict (byteJob.address "n")
  obtain ⟨_, _, _, _, warm, exits, ran⟩ := RunPlan.run_session sound evicts _
  obtain ⟨_, _, _, _, cold, exits', ran'⟩ := RunPlan.run_session sound evicts {}
  refine ⟨_, _, _, _, _, _, _, _, _, _, history, warm, cold, exits, exits', ran, ran',
    (served_of_sessions history built_byteGraph lawful rfl warm cold exits exits'
      (collisionless_byteJob.mono ?_)).1⟩
  rintro job (member | member | member)
  · exact single first job member
  · exact single warm job member
  · exact single cold job member

end TablePipeline
