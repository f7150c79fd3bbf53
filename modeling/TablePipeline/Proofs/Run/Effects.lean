import TablePipeline.Proofs.Run.Discipline
import TablePipeline.Proofs.Run.Truthful

/-! # What a run leaves in the store

Whatever a store holds, a run writes the outputs of the tasks that succeed, each once, and nothing
else: a task that fails, in whatever way, and one that is never handed out leave the store as it is.
No two tasks write at one address, since the digest of an address covers the namespace, the name and
the fingerprint, and the fingerprint covers the task. So no write of a run is lost to another one,
and all that is reported can be read back when the run has ended.
-/

namespace TablePipeline

/-- Nobody else touches the store. -/
def alone : Interference := fun _ _ => False

namespace Job

/-- The fingerprints that outputs of a job may be stored under, if its body runs as one of some
runs: that of the job, and one for each run if the job is not cached. -/
inductive Place (job : Job) (runs : Set Nat) : Fingerprint → Prop where
  | own : Place job runs job.fingerprint
  | ofRun {nonce : Nat} (fresh : job.task.determinism = .nonCacheable) (ran : nonce ∈ runs) :
      Place job runs (job.fingerprint.ofRun nonce)

/-- What the outputs of a job may be recorded for. -/
def Keys (job : Job) (runs : Set Nat) (key : OutputKey) : Prop :=
  ∃ place, job.Place runs place ∧ ∃ spec ∈ job.task.outputs, key = job.key place spec

/-- What the digest of the fingerprint of a run covers. -/
def run (job : Job) (nonce : Nat) : Bytes :=
  Fingerprint.encode "nonce"
    [.digest "task" job.fingerprint.digest, ⟨"nonce", Bytes.littleEndian 16 nonce⟩]

/-- The byte strings that may be hashed for a job, if its body runs as one of some runs. -/
inductive Hashes (job : Job) (runs : Set Nat) : Bytes → Prop where
  | invocation : Hashes job runs job.invocation
  | run {nonce : Nat} (fresh : job.task.determinism = .nonCacheable) (ran : nonce ∈ runs) :
      Hashes job runs (job.run nonce)
  | address {key : OutputKey} (isKey : job.Keys runs key) :
      Hashes job runs
        (Fingerprint.encode "address" (Address.fields key.stage key.name key.fingerprint))

theorem place_forStorage {job : Job} {runs : Set Nat} {nonce : Nat} (ran : nonce ∈ runs) :
    job.Place runs (job.fingerprint.forStorage job.task.determinism nonce) := by
  cases determinism : job.task.determinism with
  | deterministic => exact .own
  | nonCacheable => exact .ofRun determinism ran

end Job

/-- No two different byte strings that are hashed for some jobs in some runs have the same digest,
and all of them fit into memory. -/
structure NoCollision (jobs : Set Job) (runs : Set Nat) : Prop where
  digests : Set.InjOn Digest.of {bytes | ∃ job ∈ jobs, job.Hashes runs bytes}
  fits : ∀ job ∈ jobs, ∀ bytes, job.Hashes runs bytes → bytes.Fits

namespace NoCollision

variable {jobs : Set Job} {runs : Set Nat} {job job' : Job}
  (noCollision : NoCollision jobs runs) (known : job ∈ jobs) (known' : job' ∈ jobs)

include noCollision known known'

/-- Byte strings that are hashed with the same digest are the same. -/
theorem bytes_eq {bytes bytes' : Bytes} (hashes : job.Hashes runs bytes)
    (hashes' : job'.Hashes runs bytes') (same : Digest.of bytes = Digest.of bytes') :
    bytes = bytes' :=
  noCollision.digests ⟨job, known, hashes⟩ ⟨job', known', hashes'⟩ same

/-- The bytes of an invocation and of a run differ in their domains. -/
theorem fingerprint_ne_ofRun {nonce : Nat} (fresh : job'.task.determinism = .nonCacheable)
    (ran : nonce ∈ runs) : job.fingerprint ≠ job'.fingerprint.ofRun nonce := by
  intro same
  have bytes := noCollision.bytes_eq known known' .invocation (.run fresh ran)
    (congrArg Fingerprint.digest same)
  have fits := noCollision.fits job known _ .invocation
  exact absurd (Fingerprint.encode_inj fits bytes).1 (by decide)

/-- Fingerprints that outputs are stored under tell the fingerprints of the jobs. -/
theorem fingerprint_eq_of_place {place : Fingerprint} (placed : job.Place runs place)
    (placed' : job'.Place runs place) : job.fingerprint = job'.fingerprint := by
  generalize same : place = other at placed'
  cases placed with
  | own =>
    cases placed' with
    | own => exact same
    | ofRun fresh ran => exact absurd same (noCollision.fingerprint_ne_ofRun known known' fresh ran)
  | ofRun fresh ran =>
    cases placed' with
    | own =>
      exact absurd same.symm (noCollision.fingerprint_ne_ofRun known' known fresh ran)
    | ofRun fresh' ran' =>
      have bytes := noCollision.bytes_eq known known' (.run fresh ran) (.run fresh' ran')
        (congrArg Fingerprint.digest same)
      have fits := noCollision.fits job known _ (.run fresh ran)
      have fields := (Fingerprint.encode_inj fits bytes).2
      have values := congrArg Field.value (List.cons.inj fields).1
      exact congrArg (fun bytes => (⟨⟨bytes⟩⟩ : Fingerprint)) values

/-- The digest of an address tells what an output is recorded for. -/
theorem key_eq_of_digest {key key' : OutputKey} (isKey : job.Keys runs key)
    (isKey' : job'.Keys runs key') (same : key.address.digest = key'.address.digest) :
    key = key' := by
  have bytes := noCollision.bytes_eq known known' (.address isKey) (.address isKey') same
  have fields := (Fingerprint.encode_inj
    (noCollision.fits job known _ (.address isKey)) bytes).2
  obtain ⟨stages, names, fingerprints⟩ := Address.fields_inj fields
  cases key
  cases key'
  cases stages
  cases names
  cases fingerprints
  rfl

/-- Outputs whose addresses have the same digest belong to the same task. -/
theorem id_eq_of_digest {key key' : OutputKey} (isKey : job.Keys runs key)
    (isKey' : job'.Keys runs key') (same : key.address.digest = key'.address.digest) :
    job.id = job'.id := by
  have fingerprints : job.fingerprint = job'.fingerprint := by
    cases noCollision.key_eq_of_digest known known' isKey isKey' same
    obtain ⟨place, placed, spec, _, rfl⟩ := isKey
    obtain ⟨place', placed', spec', _, places⟩ := isKey'
    cases (congrArg OutputKey.fingerprint places : place = place')
    exact noCollision.fingerprint_eq_of_place known known' placed placed'
  have digests : Set.InjOn Digest.of {job.invocation, job'.invocation} := by
    refine noCollision.digests.mono ?_
    rintro bytes (rfl | rfl)
    · exact ⟨job, known, .invocation⟩
    · exact ⟨job', known', .invocation⟩
  have fits := noCollision.fits job known _ .invocation
  exact congrArg Recipe.id (Job.fingerprint_inj digests fits fingerprints).1

end NoCollision

/-- For deterministic jobs it does not matter how often bodies ran. -/
theorem Collisionless.noCollision {jobs : Set Job} (collisionless : Collisionless jobs)
    (deterministic : ∀ job ∈ jobs, job.task.determinism = .deterministic) (runs : Set Nat) :
    NoCollision jobs runs := by
  have hashed {job : Job} (known : job ∈ jobs) {bytes : Bytes} (hashes : job.Hashes runs bytes) :
      bytes ∈ job.hashed := by
    cases hashes with
    | invocation => exact .head _
    | run fresh => cases fresh.symm.trans (deterministic job known)
    | address isKey =>
      obtain ⟨place, placed, spec, isSpec, rfl⟩ := isKey
      cases placed with
      | own => exact .tail _ (List.mem_map.mpr ⟨spec, isSpec, rfl⟩)
      | ofRun fresh => cases fresh.symm.trans (deterministic job known)
  refine ⟨collisionless.digests.mono ?_, fun job known bytes hashes =>
    collisionless.fits job known bytes (hashed known hashes)⟩
  rintro bytes ⟨job, known, hashes⟩
  exact ⟨job, known, hashed known hashes⟩

/-! ## What is reported as written -/

/-- The outputs that were written for a task: those that it reports, if its body ran. -/
def TaskReport.written (report : TaskReport) : List StoredOutput :=
  if report.state = .succeeded then report.outputs else []

/-- The outputs that were written in a run. -/
def RunResult.written (result : RunResult) : List StoredOutput :=
  result.tasks.flatMap TaskReport.written

/-- The outputs that an event reports as written. -/
def Event.written : Event → List StoredOutput
  | .finish _ (.ok ⟨_, outputs, .executed, _⟩) => outputs
  | _ => []

theorem Event.written_change (event : Event) {report : TaskReport} :
    (event.change report).written = event.written := by
  cases event with
  | start => rfl
  | abort => rfl
  | finish position result =>
    cases result with
    | error => rfl
    | ok materialized =>
      obtain ⟨_, _, source, _⟩ := materialized
      cases source <;> rfl

namespace Coordinator

variable {plan : RunPlan} {admits : Admits} {allowed : Allowed} {first last : Coordinator}
  {event : Event}

/-- The outputs that were written so far. -/
def written (coordinator : Coordinator) : List StoredOutput :=
  (coordinator.reports.filterMap id).flatMap TaskReport.written

theorem written_result (coordinator : Coordinator) :
    coordinator.result.written.Perm coordinator.written :=
  (List.mergeSort_perm ..).flatMap_right _

/-- A move adds what its event reports as written. -/
theorem Move.written (coherent : first.Coherent plan) (move : Move plan admits first event last) :
    last.written.Perm (event.written ++ first.written) := by
  have found := move.found coherent
  rw [Coordinator.state?, Option.map_eq_some_iff] at found
  obtain ⟨report, here, state⟩ := found
  have nothing : report.written = [] := by
    rw [TaskReport.written, state, if_neg]
    intro wrote
    cases event <;> cases wrote
  rw [Coordinator.report?, Option.join_eq_some_iff] at here
  obtain ⟨inside, isHere⟩ := List.getElem?_eq_some_iff.mp here
  have cut := List.drop_eq_getElem_cons inside
  rw [Coordinator.written, move.reports, Coordinator.written,
    List.modify_eq_take_cons_drop inside]
  conv => rhs; rw [← List.take_append_drop event.position first.reports, cut, isHere]
  rw [isHere]
  simp only [List.filterMap_append, List.filterMap_cons, id_eq, Option.map_some,
    List.flatMap_append, List.flatMap_cons, event.written_change, nothing, List.nil_append]
  rw [← List.append_assoc, ← List.append_assoc]
  exact List.perm_append_comm.append_right _

/-- A task that succeeded had all its inputs. -/
theorem Reasoned.hasInputs (reasoned : first.Reasoned plan allowed) {position : Nat}
    {node : TaskNode} {report : TaskReport} (isNode : plan.graph.nodes[position]? = some node)
    (here : first.report? position = some report) (success : report.state.isSuccess = true) :
    first.hasInputs node.producers = true := by
  cases reasoned.explained isNode here with
  | ended inputs => exact inputs
  | _ => cases success

theorem HandedOut.hasInputs {started : StartedTask} (handedOut : HandedOut plan first started)
    {node : TaskNode} (isNode : plan.graph.nodes[started.position]? = some node) :
    first.hasInputs node.producers = true := by
  obtain ⟨_, _, isOther, _, inputs⟩ := handedOut
  cases isNode.symm.trans isOther
  exact inputs

/-- The job of a task that was handed out stays what it is. -/
theorem Move.jobOf (coherent : first.Coherent plan) (move : Move plan admits first event last)
    {node : TaskNode} (inputs : first.hasInputs node.producers = true) :
    plan.jobOf node (last.reportsOf node.producers) =
      plan.jobOf node (first.reportsOf node.producers) := by
  rw [move.reportsOf coherent inputs]

/-- The jobs of tasks that ended, on what their producers report. -/
inductive Done (plan : RunPlan) (coordinator : Coordinator) : Job → Prop where
  | intro {position : Nat} {node : TaskNode} {report : TaskReport}
      (isNode : plan.graph.nodes[position]? = some node)
      (here : coordinator.report? position = some report)
      (ended : report.state.isTerminal = true)
      (inputs : coordinator.hasInputs node.producers = true) :
      Done plan coordinator (plan.jobOf node (coordinator.reportsOf node.producers))

theorem Done.move {job : Job} (done : Done plan first job) (coherent : first.Coherent plan)
    (move : Move plan admits first event last) : Done plan last job := by
  obtain ⟨isNode, here, ended, inputs⟩ := done
  rw [← move.jobOf coherent inputs]
  exact .intro isNode (move.report?_ended coherent here ended) ended
    (move.hasInputs coherent inputs)

end Coordinator

namespace Workshop.Outcome

variable {workshop after : Workshop} {job : Job} {result : Except TaskError Materialized}
  {runs : Set Nat}

/-- What comes out was written, each output at an address of its own; if nothing does, nothing
was. -/
theorem writes (outcome : workshop.Outcome job after result)
    (distinct : (job.task.outputs.map (·.name)).Nodup)
    (ran : ∀ nonce, workshop.executed.length ≤ nonce → nonce < after.executed.length →
      nonce ∈ runs) (position : Nat) :
    ∃ writes, after.store = workshop.store.putEach writes ∧
      writes.map Write.output = (Event.finish position result).written ∧
      (writes.map (·.key.address)).Nodup ∧ ∀ write ∈ writes, job.Keys runs write.key := by
  cases outcome with
  | failed => exact ⟨[], rfl, rfl, List.nodup_nil, nofun⟩
  | served => exact ⟨[], rfl, rfl, List.nodup_nil, nofun⟩
  | @ran place artifacts _ placed checked =>
    refine ⟨job.writes place artifacts, rfl, rfl,
      Job.distinct_writes distinct (length_of_checkOutputs checked),
      fun write member => ⟨place, ?_, ?_⟩⟩
    · rw [placed]
      exact Job.place_forStorage (ran _ le_rfl (by simp))
    · exact Job.key_of_mem_writes member

/-- The cache has what comes out. -/
theorem held {materialized : Materialized}
    (outcome : workshop.Outcome job after (.ok materialized)) (proper : workshop.store.Proper)
    (distinct : (job.task.outputs.map (·.name)).Nodup)
    (ran : ∀ nonce, workshop.executed.length ≤ nonce → nonce < after.executed.length →
      nonce ∈ runs) :
    materialized.fingerprint = job.fingerprint ∧ ∃ place, job.Place runs place ∧
      after.store.cached job.namespaceName place job.task.outputs =
        .ok (.hit materialized.outputs) := by
  cases outcome with
  | served hit => exact ⟨rfl, _, .own, hit⟩
  | ran placed checked =>
    refine ⟨rfl, _, ?_, Job.cached_writes proper distinct checked⟩
    rw [placed]
    exact Job.place_forStorage (ran _ le_rfl (by simp))

/-- A job that fails leaves the store. -/
theorem store_of_error {error : TaskError} (outcome : workshop.Outcome job after (.error error)) :
    after.store = workshop.store := by
  cases outcome with
  | failed => rfl

end Workshop.Outcome

namespace Session

open Coordinator

variable {plan : RunPlan} {others : Interference} {all : Set Job} {runs : Set Nat}
  {opened workshop after : Workshop} {events : List Event} {jobs : List Job}
  {coordinator : Coordinator}

/-- The jobs of a session are those of tasks that ended. -/
theorem done (session : Session plan others opened events jobs coordinator workshop)
    (sound : plan.Sound) {job : Job} (member : job ∈ jobs) : Done plan coordinator job := by
  induction session with
  | start => cases member
  | scan session move ih => exact (ih member).move (session.path.coherent sound) move
  | other _ _ ih => exact ih member
  | @finish events jobs coordinator workshop after started node result session running isNode _
      ih =>
    have coherent := session.path.coherent sound
    have move : Move plan anyResult coordinator (.finish started.position result) _ :=
      .finish running trivial
    rcases List.mem_append.mp member with old | new
    · exact (ih old).move coherent move
    · have path : Path plan (allows plan fun _ _ _ _ => True) plan.start events coordinator :=
        session.path
      have handedOut := (path.reasoned sound).handedOut started running
      have inputs := handedOut.hasInputs isNode
      have state : (coordinator.complete plan started.position result).state? started.position =
          some (.ofResult result) := by
        rw [move.state? coherent]
        exact if_pos rfl
      rw [Coordinator.state?, Option.map_eq_some_iff] at state
      obtain ⟨report, here, state⟩ := state
      rw [List.mem_singleton.mp new, handedOut.job_eq isNode, ← move.jobOf coherent inputs]
      refine .intro isNode here ?_ (move.hasInputs coherent inputs)
      rw [state]
      exact TaskState.isTerminal_of_cameBack (TaskState.cameBack_ofResult result)

/-- A task that is handed out had no job yet. -/
theorem id_ne (session : Session plan others opened events jobs coordinator workshop)
    (sound : plan.Sound) {started : StartedTask} (running : started ∈ coordinator.running)
    {node : TaskNode} (isNode : plan.graph.nodes[started.position]? = some node) {job : Job}
    (member : job ∈ jobs) : job.id ≠ node.id := by
  obtain @⟨position, other, report, isOther, here, ended, _⟩ := session.done sound member
  intro same
  have positions := sound.formed.position?_id isOther
  rw [show other.id = node.id from same, sound.formed.position?_id isNode,
    Option.some.injEq] at positions
  have state := ((session.path.coherent sound).running _).mp (List.mem_map_of_mem running)
  rw [positions, Coordinator.state?, here, Option.map_some, Option.some.injEq] at state
  rw [state] at ended
  cases ended

/-- The number of bodies that ran does not go down. -/
theorem longer (session : Session plan others opened events jobs coordinator workshop) :
    opened.executed.length ≤ workshop.executed.length := by
  induction session with
  | start => exact le_rfl
  | scan _ _ ih => exact ih
  | finish _ _ _ done ih => exact ih.trans (Workshop.outcome_of_materialize done).longer
  | other _ _ ih => exact ih

/-- What a session has left in the store so far. -/
structure Stocked (plan : RunPlan) (runs : Set Nat) (opened : Store) (jobs : List Job)
    (coordinator : Coordinator) (store : Store) : Prop where
  /-- Only outputs of jobs were written, and those are reported. -/
  wrote : ∃ writes, store = opened.putEach writes ∧
    (writes.map Write.output).Perm coordinator.written ∧
    (writes.map (·.key.address)).Nodup ∧ ∀ write ∈ writes, ∃ job ∈ jobs, job.Keys runs write.key
  /-- The cache has what tasks report that succeeded. -/
  holds : ∀ {position : Nat} {node : TaskNode} {report : TaskReport},
    plan.graph.nodes[position]? = some node → coordinator.report? position = some report →
    report.state.isSuccess = true →
    ∃ job ∈ jobs, job = plan.jobOf node (coordinator.reportsOf node.producers) ∧
      report.fingerprint = some job.fingerprint ∧ ∃ place, job.Place runs place ∧
        store.cached job.namespaceName place job.task.outputs = .ok (.hit report.outputs)

/-- Handing out and abandoning tasks leaves all as it is. -/
theorem Stocked.scan {store : Store} {admits : Admits} {allowed : Allowed} {event : Event}
    {first last : Coordinator} (stocked : Stocked plan runs opened.store jobs first store)
    (coherent : first.Coherent plan) (reasoned : first.Reasoned plan allowed)
    (move : Move plan admits first event last) (isScan : event.isFinish = false) :
    Stocked plan runs opened.store jobs last store := by
  obtain ⟨writes, same, reported, distinct, keys⟩ := stocked.wrote
  refine ⟨⟨writes, same, ?_, distinct, keys⟩, fun {position node report} isNode here success => ?_⟩
  · have nothing : event.written = [] := by
      cases event with
      | start => rfl
      | abort => rfl
      | finish => cases isScan
    refine reported.trans ?_
    simpa [nothing] using (move.written coherent).symm
  · rw [move.report?] at here
    split at here
    · obtain ⟨before, _, rfl⟩ := Option.map_eq_some_iff.mp here
      rw [event.state_change] at success
      cases event with
      | start => cases success
      | abort => cases success
      | finish => cases isScan
    · rw [move.reportsOf coherent (reasoned.hasInputs isNode here success)]
      exact stocked.holds isNode here success

/-- A task that comes back leaves its outputs in the store, and those of all other tasks. -/
theorem Stocked.finish {allowed : Allowed} {first : Coordinator} {started : StartedTask}
    {node : TaskNode} {result : Except TaskError Materialized} {job : Job}
    (stocked : Stocked plan runs opened.store jobs first workshop.store) (sound : plan.Sound)
    (coherent : first.Coherent plan) (reasoned : first.Reasoned plan allowed)
    (running : started ∈ first.running) (isNode : plan.graph.nodes[started.position]? = some node)
    (isJob : job = plan.jobOf node (first.reportsOf node.producers))
    (new : ∀ other ∈ jobs, other.id ≠ job.id) (proper : workshop.store.Proper)
    (noCollision : NoCollision all runs) (known : ∀ other ∈ jobs ++ [job], other ∈ all)
    (ran : ∀ nonce, workshop.executed.length ≤ nonce → nonce < after.executed.length →
      nonce ∈ runs)
    (outcome : workshop.Outcome job after result) :
    Stocked plan runs opened.store (jobs ++ [job])
      (first.complete plan started.position result) after.store := by
  have move : Move plan anyResult first (.finish started.position result) _ :=
    .finish running trivial
  have isLast : job ∈ jobs ++ [job] := List.mem_append_right _ (.head _)
  have named : (job.task.outputs.map (·.name)).Nodup := by
    rw [isJob]
    exact sound.formed.distinct (List.mem_of_getElem? isNode)
  -- no other job of the session has an output at an address of this one
  have apart {other : Job} {key key' : OutputKey} (member : other ∈ jobs)
      (isKey : other.Keys runs key) (isKey' : job.Keys runs key') : key'.address ≠ key.address :=
    fun same => new other member (noCollision.id_eq_of_digest
      (known _ (List.mem_append_left _ member)) (known _ isLast) isKey isKey'
      (congrArg Address.digest same.symm))
  obtain ⟨writes, same, reported, distinct, keys⟩ := stocked.wrote
  obtain ⟨more, stored, written, moreDistinct, moreKeys⟩ :=
    outcome.writes named ran started.position
  refine ⟨⟨writes ++ more, ?_, ?_, ?_, ?_⟩, fun {position other report} isOther here success => ?_⟩
  · rw [stored, same, Store.putEach_append]
  · rw [List.map_append, written]
    exact (List.perm_append_comm.trans (reported.append_left _)).trans (move.written coherent).symm
  · rw [List.map_append, List.nodup_append]
    refine ⟨distinct, moreDistinct, fun address old address' added => ?_⟩
    obtain ⟨write, member, rfl⟩ := List.mem_map.mp old
    obtain ⟨write', member', rfl⟩ := List.mem_map.mp added
    obtain ⟨other, isOther, isKey⟩ := keys write member
    exact (apart isOther isKey (moreKeys write' member')).symm
  · intro write member
    rcases List.mem_append.mp member with old | added
    · obtain ⟨other, isOther, isKey⟩ := keys write old
      exact ⟨other, List.mem_append_left _ isOther, isKey⟩
    · exact ⟨job, isLast, moreKeys write added⟩
  · rw [move.report?] at here
    split at here
    · rename_i isHere
      cases isHere
      cases isNode.symm.trans isOther
      obtain ⟨before, _, rfl⟩ := Option.map_eq_some_iff.mp here
      have inputs := (reasoned.handedOut started running).hasInputs isNode
      cases result with
      | error => cases success
      | ok materialized =>
        obtain ⟨fingerprint, hit⟩ := outcome.held proper named ran
        exact ⟨job, isLast, isJob.trans (move.jobOf coherent inputs).symm,
          congrArg some fingerprint, hit⟩
    · have inputs := reasoned.hasInputs isOther here success
      obtain ⟨job', isJob', jobOf, fingerprint, place, placed, hit⟩ :=
        stocked.holds isOther here success
      refine ⟨job', List.mem_append_left _ isJob', jobOf.trans (move.jobOf coherent inputs).symm,
        fingerprint, place, placed, ?_⟩
      rw [stored]
      exact proper.cached_putEach hit fun write member spec isSpec =>
        apart isJob' ⟨place, placed, spec, isSpec, rfl⟩ (moreKeys write member)

theorem written_start (plan : RunPlan) : plan.start.written = [] := by
  rw [Coordinator.written, List.flatMap_eq_nil_iff]
  intro report member
  obtain ⟨entry, isEntry, rfl⟩ := List.mem_filterMap.mp member
  obtain ⟨position, inside, initial⟩ := List.mem_mapIdx.mp isEntry
  obtain ⟨_, _, rfl⟩ := Option.map_eq_some_iff.mp initial
  rfl

/-- A session keeps account of all that it writes, in whatever order tasks come back. -/
theorem stocked (session : Session plan alone opened events jobs coordinator workshop)
    (sound : plan.Sound) (proper : opened.store.Proper) (noCollision : NoCollision all runs)
    (known : ∀ job ∈ jobs, job ∈ all)
    (ran : ∀ nonce, opened.executed.length ≤ nonce → nonce < workshop.executed.length →
      nonce ∈ runs) :
    Stocked plan runs opened.store jobs coordinator workshop.store := by
  induction session with
  | start =>
    refine ⟨⟨[], rfl, ?_, List.nodup_nil, nofun⟩, fun {position node report} isNode here success =>
      ?_⟩
    · rw [written_start]
      exact .refl _
    · have pending := state?_start sound position
      rw [Coordinator.state?, here, Option.map_some] at pending
      obtain ⟨_, _, pending⟩ := Option.map_eq_some_iff.mp pending.symm
      rw [← pending] at success
      cases success
  | @scan events jobs coordinator next workshop event session move ih =>
    have path : Path plan (allows plan fun _ _ _ _ => True) plan.start events coordinator :=
      session.path
    refine (ih known ran).scan (session.path.coherent sound) (path.reasoned sound) move ?_
    cases move with
    | start => rfl
    | abort => rfl
    | finish _ admitted => exact admitted.elim
  | other _ happens => exact happens.elim
  | @finish events jobs coordinator workshop after started node result session running isNode done
      ih =>
    have path : Path plan (allows plan fun _ _ _ _ => True) plan.start events coordinator :=
      session.path
    have outcome := Workshop.outcome_of_materialize done
    have before := ih (fun job member => known job (List.mem_append_left _ member))
      fun nonce low high => ran nonce low (high.trans_le outcome.longer)
    have reasoned := path.reasoned sound
    have workshopProper : workshop.store.Proper := by
      obtain ⟨writes, same, _⟩ := before.wrote
      rw [same]
      exact proper.putEach writes
    exact before.finish sound (session.path.coherent sound) reasoned running isNode
      ((reasoned.handedOut started running).job_eq isNode)
      (fun other => session.id_ne sound running isNode) workshopProper noCollision known
      (fun nonce low => ran nonce (session.longer.trans low)) outcome

end Session

/-- What a run did to a store: the outputs of the tasks that succeeded were written, each once and
at an address of its own, nothing else changed, and all that is reported can be read back. -/
structure Store.Effects (before after : Store) (result : RunResult) : Prop where
  writes : ∃ writes, after = before.putEach writes ∧
    (writes.map Write.output).Perm result.written
  distinct : (result.written.map (·.address)).Nodup
  count : after.writes = before.writes + result.written.length
  index : ∀ key, (∀ output ∈ result.written, output.address ≠ key.address) →
    after.index.find? key = before.index.find? key
  payloads : ∀ address, (∀ output ∈ result.written, output.address ≠ address) →
    after.payloads.find? address = before.payloads.find? address
  readable : ∀ report ∈ result.tasks, report.state.isSuccess = true →
    ∀ output ∈ report.outputs, ∃ stored, after.get output.address = .ok stored ∧
      stored.address = output.address ∧ stored.artifact = output.artifact

/-- What a session keeps account of is what the run did to the store. -/
theorem Session.Stocked.effects {plan : RunPlan} {runs : Set Nat} {before after : Store}
    {jobs : List Job} {last : Coordinator} (stocked : Stocked plan runs before jobs last after)
    (sound : plan.Sound) (coherent : last.Coherent plan) (proper : before.Proper) :
    before.Effects after last.result := by
  obtain ⟨writes, rfl, reported, distinct, _⟩ := stocked.wrote
  have reported := reported.trans last.written_result.symm
  have addressed := reported.map (·.address)
  rw [List.map_map] at addressed
  have reports {write : Write} (member : write ∈ writes) :
      ∃ output ∈ last.result.written, output.address = write.key.address :=
    ⟨write.output, reported.mem_iff.mp (List.mem_map_of_mem member), rfl⟩
  refine ⟨⟨writes, rfl, reported⟩, addressed.nodup_iff.mp distinct, ?_, fun key elsewhere => ?_,
    fun address elsewhere => ?_, fun report isReport success output member => ?_⟩
  · rw [Store.writes_putEach, ← reported.length_eq, List.length_map]
  · refine Store.index_putEach fun write member same => ?_
    obtain ⟨output, isOutput, here⟩ := reports member
    exact elsewhere output isOutput (here.trans (congrArg _ same))
  · refine Store.payloads_putEach fun write member same => ?_
    obtain ⟨output, isOutput, here⟩ := reports member
    exact elsewhere output isOutput (here.trans same)
  · obtain ⟨position, here⟩ := Coordinator.mem_result.mp isReport
    obtain ⟨node, isNode⟩ := coherent.isNode sound here
    obtain ⟨_, _, _, _, place, _, hit⟩ := stocked.holds isNode here success
    exact (proper.putEach writes).get_of_cached hit member

/-- A run writes the outputs of the tasks that succeeded and changes nothing else, in whatever order
tasks come back; a task that fails, in whatever way, leaves the store as it is. -/
theorem effects_of_session {config : RunConfig} {graph : Graph} {plan : RunPlan}
    (built : graph.Built) (plans : config.Plans graph plan) {opened closed : Workshop}
    (reached : opened.store.Reached) {events : List Event} {jobs : List Job} {last : Coordinator}
    (session : Session plan alone opened events jobs last closed)
    (noCollision : NoCollision {job | job ∈ jobs}
      (Set.Ico opened.executed.length closed.executed.length)) :
    opened.store.Effects closed.store last.result ∧
      ∀ {workshop after : Workshop} {job : Job} {mode : Mode} {error : TaskError},
        workshop.materialize job mode = (after, .error error) → after.store = workshop.store := by
  have sound := plans.sound built
  have stocked := session.stocked sound reached.proper noCollision (fun _ => id)
    fun _ low high => ⟨low, high⟩
  exact ⟨stocked.effects sound (session.path.coherent sound) reached.proper,
    fun failed => (Workshop.outcome_of_materialize failed).store_of_error⟩

/-- A task that reads nothing and is to give one blob. -/
def blobTask (name version : String) (body : TaskBody) : Task where
  name := name
  version := version
  declared := [⟨name, .blob⟩]
  body := body

@[inherit_doc blobTask]
def blobJob (name version : String) (body : TaskBody) : Job :=
  ⟨⟨"in", name⟩, "in", blobTask name version body, []⟩

/-- Two versions of a task, and another task. -/
def blobVersions : List (String × String) := [("n", "1"), ("n", "2"), ("m", "1")]

/-- The tasks of `blobVersions` can be told apart by what is hashed for them. -/
theorem collisionless_blobJob {jobs : Set Job} (each : ∀ job ∈ jobs,
    ∃ version ∈ blobVersions, ∃ body, job = blobJob version.1 version.2 body) :
    Collisionless jobs := by
  let hashes : List Bytes := blobVersions.flatMap fun version =>
    (blobJob version.1 version.2 fun _ => .ok []).hashed
  have differ : (hashes.map Digest.of).Nodup := by
    refine Digest.nodup_of_firsts [104, 43, 155, 213, 74, 223] ?_ (by decide)
    refine .cons ?_ (.cons ?_ (.cons ?_ (.cons ?_ (.cons ?_ (.cons ?_ .nil)))))
    all_goals decide +kernel
  have fit : ∀ bytes ∈ hashes, bytes.Fits := by decide +kernel
  have listed {job : Job} (isJob : job ∈ jobs) {bytes : Bytes} (member : bytes ∈ job.hashed) :
      bytes ∈ hashes := by
    obtain ⟨version, isVersion, body, rfl⟩ := each job isJob
    exact List.mem_flatMap.mpr ⟨version, isVersion, member⟩
  constructor
  · rintro bytes ⟨job, isJob, member⟩ other ⟨job', isJob', member'⟩ same
    exact List.inj_on_of_nodup_map differ (listed isJob member) (listed isJob' member') same
  · exact fun job isJob bytes member => fit bytes (listed isJob member)

/-- A task that gives its blob, and one that gives less than it declares. -/
def lackingGraph : Graph where
  stages := ["in"]
  nodes := [⟨⟨"in", "n"⟩, 0, blobTask "n" "1" fun _ => .ok [.blob ⟨"n", [7]⟩], []⟩,
    ⟨⟨"in", "m"⟩, 0, blobTask "m" "1" fun _ => .ok [], []⟩]

theorem built_lackingGraph : lackingGraph.Built := by
  have stages := @Graph.Built.addStage _ _ "in" .empty rfl
  have gives := @Graph.Built.add _ _ "in" (blobTask "n" "1" fun _ => .ok [.blob ⟨"n", [7]⟩])
    stages rfl
  exact @Graph.Built.add _ _ "in" (blobTask "m" "1" fun _ => .ok []) gives rfl

/-- A store that holds an artifact of another task. -/
def oldStore : Store :=
  (Store.empty.put ⟨"in", "old", ⟨⟨[]⟩⟩⟩ (.blob ⟨"old", [1]⟩)).1

/-- A run on a store that is not empty: both bodies run, and there is one write. -/
theorem effects_lackingGraph :
    ∃ events jobs last closed,
      Session (RunConfig.fullPlan {} lackingGraph) alone ⟨oldStore, []⟩ events jobs last closed ∧
      oldStore.Reached ∧
      NoCollision {job | job ∈ jobs} (Set.Ico 0 closed.executed.length) ∧
      RunConfig.run {} lackingGraph ⟨oldStore, []⟩ = (last.result, closed) ∧
      closed.executed.length = 2 ∧ closed.store.writes = oldStore.writes + 1 ∧
      oldStore.Effects closed.store last.result := by
  have plans : ({} : RunConfig).Plans lackingGraph (RunConfig.fullPlan {} lackingGraph) := .full
  have sound := plans.sound built_lackingGraph
  have reached : oldStore.Reached := .put .empty _ _
  obtain ⟨events, jobs, last, closed, session, _, ran⟩ :=
    RunPlan.run_session sound alone ⟨oldStore, []⟩
  have known : ∀ job ∈ jobs, ∃ version ∈ blobVersions, ∃ body,
      job = blobJob version.1 version.2 body := by
    intro job member
    obtain ⟨node, isNode, reports, rfl⟩ := session.mem_jobs sound member
    rcases List.mem_cons.mp isNode with rfl | isNode
    · exact ⟨("n", "1"), .head _, _, rfl⟩
    · cases List.mem_singleton.mp isNode
      exact ⟨("m", "1"), .tail _ (.tail _ (.head _)), _, rfl⟩
  have deterministic : ∀ job ∈ jobs, job.task.determinism = .deterministic := by
    intro job member
    obtain ⟨_, _, _, rfl⟩ := known job member
    rfl
  have noCollision := (collisionless_blobJob known).noCollision deterministic
    (Set.Ico 0 closed.executed.length)
  have same (view : Workshop → Nat) := congrArg (fun outcome => view outcome.2) ran
  refine ⟨events, jobs, last, closed, session, reached, noCollision, ran, ?_, ?_,
    (effects_of_session built_lackingGraph plans reached session noCollision).1⟩
  · rw [← same (·.executed.length)]
    decide +kernel
  · rw [← same (·.store.writes)]
    decide +kernel

end TablePipeline
