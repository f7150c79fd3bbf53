import TablePipeline.Proofs.Run.Produced

/-! # What a job writes

A job that is materialised leaves the store as it is, or writes the outputs of its body, one after
the other. A write touches the record of one output and the artifact at one address; so what the
cache has of an invocation stays as long as nothing is written at its addresses, and what a job
wrote is what the cache has of it afterwards.
-/

namespace TablePipeline

/-- Where an output is stored. -/
def OutputKey.address (key : OutputKey) : Address :=
  .ofFingerprint key.stage key.name key.fingerprint

/-- An artifact that is written for an output. -/
structure Write where
  key : OutputKey
  artifact : Artifact

/-- What is reported of a write. -/
def Write.output (write : Write) : StoredOutput :=
  ⟨write.key.address, write.artifact⟩

namespace Store

/-- The stores that there are: a store starts empty, and is written to and dropped from. -/
inductive Reached : Store → Prop where
  | empty : Reached .empty
  | put {store : Store} (reached : Reached store) (key : OutputKey) (artifact : Artifact) :
      Reached (store.put key artifact).1
  | evict {store : Store} (reached : Reached store) (address : Address) :
      Reached (store.evict address).1

/-- Are outputs recorded at their addresses, and do artifacts know the addresses they are at? -/
structure Proper (store : Store) : Prop where
  index : ∀ {key : OutputKey} {address : Address}, store.index.find? key = some address →
    address = key.address
  payloads : ∀ {address : Address} {stored : StoredArtifact},
    store.payloads.find? address = some stored → stored.address = address

/-- Writes in turn. -/
def putEach (store : Store) (writes : List Write) : Store :=
  writes.foldl (fun store write => (store.put write.key write.artifact).1) store

variable {store : Store}

/-! ## What a write changes -/

theorem index_put (store : Store) (key other : OutputKey) (artifact : Artifact) :
    (store.put key artifact).1.index.find? other =
      if other = key then some key.address else store.index.find? other :=
  Dictionary.find?_insert ..

theorem payloads_put (store : Store) (key : OutputKey) (artifact : Artifact) (address : Address) :
    (store.put key artifact).1.payloads.find? address =
      if address = key.address then some (stored key artifact) else store.payloads.find? address :=
  Dictionary.find?_insert ..

theorem Proper.put (proper : store.Proper) (key : OutputKey) (artifact : Artifact) :
    (store.put key artifact).1.Proper := by
  refine ⟨fun {other address} here => ?_, fun {address stored} here => ?_⟩
  · rw [index_put] at here
    split at here
    · rename_i same
      rw [same, Option.some.inj here]
    · exact proper.index here
  · rw [payloads_put] at here
    split at here
    · rename_i same
      rw [same, ← Option.some.inj here]
      rfl
    · exact proper.payloads here

theorem Proper.evict (proper : store.Proper) (address : Address) :
    (store.evict address).1.Proper := by
  refine ⟨proper.index, fun {other stored} here => ?_⟩
  rw [Store.evict, Dictionary.find?_erase] at here
  split at here
  · cases here
  · exact proper.payloads here

theorem Reached.proper (reached : store.Reached) : store.Proper := by
  induction reached with
  | empty => exact ⟨nofun, nofun⟩
  | put _ key artifact ih => exact ih.put key artifact
  | evict _ address ih => exact ih.evict address

/-! ## What writes in turn change -/

theorem putEach_append (store : Store) (writes more : List Write) :
    store.putEach (writes ++ more) = (store.putEach writes).putEach more :=
  List.foldl_append

theorem Proper.putEach (proper : store.Proper) (writes : List Write) :
    (store.putEach writes).Proper := by
  induction writes generalizing store with
  | nil => exact proper
  | cons write writes ih => exact ih (proper.put _ _)

theorem writes_putEach (writes : List Write) :
    (store.putEach writes).writes = store.writes + writes.length := by
  induction writes generalizing store with
  | nil => rfl
  | cons write writes ih =>
    rw [List.length_cons, Nat.add_comm writes.length, ← Nat.add_assoc]
    exact ih

/-- What no single write changes is left by writes in turn. -/
theorem putEach_unchanged {α : Type} (part : Store → α) {writes : List Write}
    (each : ∀ write ∈ writes, ∀ store : Store,
      part (store.put write.key write.artifact).1 = part store) :
    part (store.putEach writes) = part store := by
  induction writes generalizing store with
  | nil => rfl
  | cons write writes ih =>
    obtain ⟨first, rest⟩ := List.forall_mem_cons.mp each
    exact (ih rest).trans (first store)

/-- Writes leave the records of other outputs. -/
theorem index_putEach {writes : List Write} {key : OutputKey}
    (elsewhere : ∀ write ∈ writes, write.key ≠ key) :
    (store.putEach writes).index.find? key = store.index.find? key := by
  refine putEach_unchanged (fun store => store.index.find? key) fun write member store => ?_
  rw [index_put, if_neg (elsewhere write member).symm]

/-- Writes leave the artifacts at other addresses. -/
theorem payloads_putEach {writes : List Write} {address : Address}
    (elsewhere : ∀ write ∈ writes, write.key.address ≠ address) :
    (store.putEach writes).payloads.find? address = store.payloads.find? address := by
  refine putEach_unchanged (fun store => store.payloads.find? address)
    fun write member store => ?_
  rw [payloads_put, if_neg (elsewhere write member).symm]

/-- Every output that is written is recorded, and all records before that stay. -/
theorem index_putEach_of {writes : List Write} {key : OutputKey}
    (recorded : store.index.find? key = some key.address ∨ ∃ write ∈ writes, write.key = key) :
    (store.putEach writes).index.find? key = some key.address := by
  induction writes generalizing store with
  | nil =>
    obtain old | ⟨_, none, _⟩ := recorded
    · exact old
    · cases none
  | cons write writes ih =>
    refine ih ?_
    rw [index_put]
    split
    · rename_i same
      rw [same]
      exact .inl rfl
    · rename_i other
      refine recorded.imp id ?_
      rintro ⟨later, member, same⟩
      rcases List.mem_cons.mp member with rfl | member
      · exact absurd same.symm other
      · exact ⟨later, member, same⟩

/-- Artifacts that are written at different addresses are all there afterwards. -/
theorem payloads_putEach_of_mem {writes : List Write}
    (distinct : (writes.map (·.key.address)).Nodup) {write : Write} (member : write ∈ writes) :
    (store.putEach writes).payloads.find? write.key.address =
      some (stored write.key write.artifact) := by
  induction writes generalizing store with
  | nil => cases member
  | cons first writes ih =>
    obtain ⟨new, distinct⟩ := List.nodup_cons.mp distinct
    rcases List.mem_cons.mp member with rfl | member
    · have elsewhere : ∀ later ∈ writes, later.key.address ≠ write.key.address :=
        fun later isLater same => new (List.mem_map.mpr ⟨later, isLater, same⟩)
      refine (payloads_putEach elsewhere).trans ?_
      rw [payloads_put, if_pos rfl]
    · exact ih distinct member

/-- Storing outputs is writing them in turn. -/
theorem putAll_eq (store : Store) (namespaceName : String) (fingerprint : Fingerprint)
    (pairs : List (Artifact × OutputSpec)) :
    store.putAll namespaceName fingerprint pairs =
      (store.putEach (pairs.map fun pair =>
          ⟨⟨namespaceName, pair.2.name, fingerprint⟩, pair.1.rename pair.2.name⟩),
        pairs.map fun pair =>
          ⟨.ofFingerprint namespaceName pair.2.name fingerprint, pair.1.rename pair.2.name⟩) := by
  refine Prod.ext ?_ (putAll_snd ..)
  induction pairs generalizing store with
  | nil => rfl
  | cons pair pairs ih => exact ih _

/-! ## What the cache has after writes -/

/-- The cache has an output exactly if it is recorded and held. -/
theorem Proper.cachedOutput_eq_hit (proper : store.Proper) {key : OutputKey} {kind : ArtifactKind}
    {outputs : List StoredOutput} :
    store.cachedOutput key kind = .ok (.hit outputs) ↔
      store.index.find? key = some key.address ∧ ∃ stored,
        store.payloads.find? key.address = some stored ∧ stored.kind = kind ∧
          outputs = [⟨key.address, stored.artifact⟩] := by
  unfold cachedOutput lookup get
  cases recorded : store.index.find? key with
  | none => simp
  | some address =>
    cases proper.index recorded
    dsimp only
    cases held : store.payloads.find? key.address with
    | none => simp
    | some stored =>
      dsimp only
      rw [proper.payloads held]
      by_cases same : stored.kind = kind
      · simp [same, eq_comm]
      · simp [same]

/-- The cache has one output that is asked for, or does not have it; it never fails. -/
theorem cachedOutput_cases (store : Store) (key : OutputKey) (kind : ArtifactKind) :
    (∃ inconsistent, store.cachedOutput key kind = .ok (.miss inconsistent)) ∨
      ∃ output, store.cachedOutput key kind = .ok (.hit [output]) := by
  unfold cachedOutput lookup get
  cases store.index.find? key with
  | none => exact .inl ⟨_, rfl⟩
  | some address =>
    dsimp only
    cases store.payloads.find? address with
    | none => exact .inl ⟨_, rfl⟩
    | some stored =>
      dsimp only
      split
      · exact .inr ⟨_, rfl⟩
      · exact .inl ⟨_, rfl⟩

/-- The cache always has an answer. -/
theorem exists_cached (store : Store) (namespaceName : String) (fingerprint : Fingerprint)
    (specs : List OutputSpec) :
    ∃ answer, store.cached namespaceName fingerprint specs = .ok answer := by
  induction specs with
  | nil => exact ⟨_, rfl⟩
  | cons spec specs ih =>
    obtain ⟨others, rest⟩ := ih
    rw [cached, rest]
    rcases store.cachedOutput_cases ⟨namespaceName, spec.name, fingerprint⟩ spec.kind with
      ⟨_, found⟩ | ⟨_, found⟩
    · exact ⟨_, by rw [found]; rfl⟩
    · rw [found]
      cases others <;> exact ⟨_, rfl⟩

/-- The cache has the outputs of an invocation exactly if it has each of them. -/
theorem cached_eq_hit {namespaceName : String} {fingerprint : Fingerprint}
    {specs : List OutputSpec} {outputs : List StoredOutput} :
    store.cached namespaceName fingerprint specs = .ok (.hit outputs) ↔
      List.Forall₂ (fun (spec : OutputSpec) output =>
        store.cachedOutput ⟨namespaceName, spec.name, fingerprint⟩ spec.kind = .ok (.hit [output]))
        specs outputs := by
  induction specs generalizing outputs with
  | nil => simp [cached, eq_comm]
  | cons spec specs ih =>
    rw [cached, bind_eq_ok, List.forall₂_cons_left_iff]
    constructor
    · rintro ⟨answer, found, hit⟩
      rcases store.cachedOutput_cases ⟨namespaceName, spec.name, fingerprint⟩ spec.kind with
        ⟨_, miss⟩ | ⟨output, one⟩
      · cases found.symm.trans miss
        cases hit
      · cases found.symm.trans one
        obtain ⟨rest | _, others, hit⟩ := bind_eq_ok.mp hit
        · cases hit
          exact ⟨output, rest, found, ih.mp others, rfl⟩
        · cases hit
    · rintro ⟨output, rest, found, others, rfl⟩
      exact ⟨_, found, by rw [ih.mpr others]; rfl⟩

/-- What the cache has of an invocation is at the addresses of the invocation. -/
theorem Proper.addresses_of_cached (proper : store.Proper) {namespaceName : String}
    {fingerprint : Fingerprint} {specs : List OutputSpec} {outputs : List StoredOutput}
    (hit : store.cached namespaceName fingerprint specs = .ok (.hit outputs)) :
    outputs.map (·.address) =
      specs.map fun spec => .ofFingerprint namespaceName spec.name fingerprint := by
  rw [cached_eq_hit] at hit
  induction hit with
  | nil => rfl
  | cons found _ ih =>
    obtain ⟨_, stored, _, _, same⟩ := proper.cachedOutput_eq_hit.mp found
    cases List.singleton_inj.mp same
    rw [List.map_cons, List.map_cons, ih]
    rfl

/-- What the cache has of an invocation stays as long as nothing is written at its addresses. -/
theorem Proper.cached_putEach (proper : store.Proper) {writes : List Write}
    {namespaceName : String} {fingerprint : Fingerprint} {specs : List OutputSpec}
    {outputs : List StoredOutput}
    (hit : store.cached namespaceName fingerprint specs = .ok (.hit outputs))
    (elsewhere : ∀ write ∈ writes, ∀ spec ∈ specs,
      write.key.address ≠ (OutputKey.mk namespaceName spec.name fingerprint).address) :
    (store.putEach writes).cached namespaceName fingerprint specs = .ok (.hit outputs) := by
  rw [cached_eq_hit] at hit ⊢
  refine forall₂_of_mem hit fun spec isSpec output found => ?_
  rw [proper.cachedOutput_eq_hit] at found
  rw [(proper.putEach writes).cachedOutput_eq_hit,
    payloads_putEach fun write member => elsewhere write member spec isSpec]
  exact ⟨index_putEach_of (.inl found.1), found.2⟩

/-- What the cache has is held. -/
theorem Proper.held_of_cached (proper : store.Proper) {namespaceName : String}
    {fingerprint : Fingerprint} {specs : List OutputSpec} {outputs : List StoredOutput}
    (hit : store.cached namespaceName fingerprint specs = .ok (.hit outputs))
    {output : StoredOutput} (member : output ∈ outputs) :
    ∃ stored, store.payloads.find? output.address = some stored ∧
      stored.artifact = output.artifact := by
  obtain ⟨spec, _, found⟩ := exists_of_mem_right (cached_eq_hit.mp hit) member
  obtain ⟨_, stored, held, _, same⟩ := proper.cachedOutput_eq_hit.mp found
  cases List.singleton_inj.mp same
  exact ⟨stored, held, rfl⟩

/-- What the cache has can be read back. -/
theorem Proper.get_of_cached (proper : store.Proper) {namespaceName : String}
    {fingerprint : Fingerprint} {specs : List OutputSpec} {outputs : List StoredOutput}
    (hit : store.cached namespaceName fingerprint specs = .ok (.hit outputs))
    {output : StoredOutput} (member : output ∈ outputs) :
    ∃ stored, store.get output.address = .ok stored ∧ stored.address = output.address ∧
      stored.artifact = output.artifact := by
  obtain ⟨stored, held, same⟩ := proper.held_of_cached hit member
  refine ⟨stored, ?_, proper.payloads held, same⟩
  rw [get, held]

end Store

theorem Artifact.kind_rename (artifact : Artifact) (name : String) :
    (artifact.rename name).kind = artifact.kind := by
  cases artifact <;> rfl

/-- Artifacts that pass the check have the kinds that are declared, one by one. -/
theorem kinds_of_checkOutputs {id : TaskId} {specs : List OutputSpec} {artifacts : List Artifact}
    (checked : checkOutputs id specs artifacts = .ok ()) :
    List.Forall₂ (fun artifact (spec : OutputSpec) => artifact.kind = spec.kind) artifacts
      specs := by
  have lengths := length_of_checkOutputs checked
  refine List.forall₂_iff_zip.mpr ⟨lengths, fun {artifact spec} member => ?_⟩
  rw [checkOutputs, if_neg (not_not.mpr lengths)] at checked
  dsimp only at checked
  split at checked
  · cases checked
  · rename_i none
    simpa using List.find?_eq_none.mp none _ member

namespace Job

variable {job : Job} {place : Fingerprint} {artifacts : List Artifact}

/-- What an output of a job is recorded for, if it is stored under a fingerprint. -/
def key (job : Job) (place : Fingerprint) (spec : OutputSpec) : OutputKey :=
  ⟨job.namespaceName, spec.name, place⟩

/-- The writes of what the body of a job gave. -/
def writes (job : Job) (place : Fingerprint) (artifacts : List Artifact) : List Write :=
  (artifacts.zip job.task.outputs).map fun pair =>
    ⟨job.key place pair.2, pair.1.rename pair.2.name⟩

theorem key_of_mem_writes {write : Write} (member : write ∈ job.writes place artifacts) :
    ∃ spec ∈ job.task.outputs, write.key = job.key place spec := by
  obtain ⟨pair, inZip, rfl⟩ := List.mem_map.mp member
  exact ⟨pair.2, (List.of_mem_zip inZip).2, rfl⟩

/-- The outputs of a job have different names, so they are written at different addresses. -/
theorem distinct_writes (distinct : (job.task.outputs.map (·.name)).Nodup)
    (lengths : artifacts.length = job.task.outputs.length) :
    ((job.writes place artifacts).map (·.key.address)).Nodup := by
  refine List.Nodup.of_map Address.name ?_
  have names : ((job.writes place artifacts).map (·.key.address)).map Address.name =
      ((artifacts.zip job.task.outputs).map Prod.snd).map (·.name) := by
    rw [writes, List.map_map, List.map_map, List.map_map]
    rfl
  rwa [names, List.map_snd_zip lengths.ge]

/-- What a job wrote is what the cache has of it afterwards. -/
theorem cached_writes {store : Store} (proper : store.Proper)
    (distinct : (job.task.outputs.map (·.name)).Nodup)
    (checked : checkOutputs job.id job.task.outputs artifacts = .ok ()) :
    (store.putEach (job.writes place artifacts)).cached job.namespaceName place job.task.outputs =
      .ok (.hit ((job.writes place artifacts).map Write.output)) := by
  have lengths := length_of_checkOutputs checked
  have kinds := List.forall₂_iff_zip.mp (kinds_of_checkOutputs checked)
  have specs := List.map_snd_zip lengths.ge
  rw [Store.cached_eq_hit]
  conv => arg 2; rw [← specs]
  rw [List.forall₂_map_left_iff, List.forall₂_map_right_iff, writes, List.forall₂_map_right_iff,
    List.forall₂_same]
  intro pair member
  rw [(proper.putEach _).cachedOutput_eq_hit]
  have written : Write.mk (job.key place pair.2) (pair.1.rename pair.2.name) ∈
      job.writes place artifacts := List.mem_map.mpr ⟨pair, member, rfl⟩
  refine ⟨Store.index_putEach_of (.inr ⟨_, written, rfl⟩), _,
    Store.payloads_putEach_of_mem (distinct_writes distinct lengths) written, ?_, rfl⟩
  exact (Artifact.kind_rename ..).trans (kinds.2 member)

end Job

namespace Workshop

/-- How a job comes out, with the workshop that it leaves: it fails and the store stays, or it is
served and everything stays, or its body runs and its outputs are written. -/
inductive Outcome (workshop : Workshop) (job : Job) :
    Workshop → Except TaskError Materialized → Prop where
  | failed {executed : List TaskId} {error : TaskError}
      (longer : workshop.executed.length ≤ executed.length) :
      Outcome workshop job { workshop with executed } (.error error)
  | served {outputs : List StoredOutput}
      (hit : workshop.store.cached job.namespaceName job.fingerprint job.task.outputs =
        .ok (.hit outputs)) :
      Outcome workshop job workshop (.ok ⟨job.fingerprint, outputs, .cache, false⟩)
  | ran {place : Fingerprint} {artifacts : List Artifact} {inconsistent : Bool}
      (placed : place =
        job.fingerprint.forStorage job.task.determinism workshop.executed.length)
      (checked : checkOutputs job.id job.task.outputs artifacts = .ok ()) :
      Outcome workshop job
        ⟨workshop.store.putEach (job.writes place artifacts), workshop.executed ++ [job.id]⟩
        (.ok ⟨job.fingerprint, (job.writes place artifacts).map Write.output, .executed,
          inconsistent⟩)

variable {workshop after : Workshop} {job : Job} {mode : Mode}
  {result : Except TaskError Materialized}

theorem recompute_of_error {error : TaskError} (inconsistent : Bool)
    (failed : produce workshop.executed.length job = .error error) :
    workshop.recompute job inconsistent =
      ({ workshop with executed := workshop.executed ++ [job.id] }, .error error) := by
  simp only [recompute, execute, failed, Except.map]

/-- A body that gives what is declared has its outputs written. -/
theorem recompute_of_ok {place : Fingerprint} {artifacts : List Artifact} (inconsistent : Bool)
    (placed : place = job.fingerprint.forStorage job.task.determinism workshop.executed.length)
    (produced : produce workshop.executed.length job = .ok artifacts) :
    workshop.recompute job inconsistent =
      (⟨workshop.store.putEach (job.writes place artifacts), workshop.executed ++ [job.id]⟩,
        .ok ⟨job.fingerprint, (job.writes place artifacts).map Write.output, .executed,
          inconsistent⟩) := by
  simp only [recompute, execute, produced, Store.putAll_eq, Except.map, ← placed, Job.writes,
    List.map_map]
  rfl

theorem checked_of_produce {runs : Nat} {artifacts : List Artifact}
    (produced : produce runs job = .ok artifacts) :
    checkOutputs job.id job.task.outputs artifacts = .ok () := by
  simp only [produce, bind_eq_ok, pure_eq_ok] at produced
  obtain ⟨_, _, _, checked, rfl⟩ := produced
  exact checked

theorem outcome_of_recompute {inconsistent : Bool}
    (done : workshop.recompute job inconsistent = (after, result)) :
    workshop.Outcome job after result := by
  cases produced : produce workshop.executed.length job with
  | error error =>
    cases (recompute_of_error inconsistent produced).symm.trans done
    exact .failed (by simp)
  | ok artifacts =>
    cases (recompute_of_ok inconsistent rfl produced).symm.trans done
    exact .ran rfl (checked_of_produce produced)

/-- A job that is materialised fails, is served, or runs. -/
theorem outcome_of_materialize (done : workshop.materialize job mode = (after, result)) :
    workshop.Outcome job after result := by
  unfold materialize at done
  dsimp only at done
  split at done
  · split at done
    · cases done
      exact .failed le_rfl
    · cases done
      exact .failed le_rfl
    · rename_i hit
      cases done
      exact .served hit
  · exact outcome_of_recompute done
  · exact outcome_of_recompute done
  · split at done
    · cases done
      exact .failed le_rfl
    · exact outcome_of_recompute done
    · rename_i hit
      cases done
      exact .served hit

/-- The number of bodies that ran does not go down. -/
theorem Outcome.longer (outcome : workshop.Outcome job after result) :
    workshop.executed.length ≤ after.executed.length := by
  cases outcome with
  | failed longer => exact longer
  | served => exact le_rfl
  | ran => simp

end Workshop

end TablePipeline
