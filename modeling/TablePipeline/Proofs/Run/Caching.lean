import TablePipeline.Proofs.Run.Writes

/-! # The store tells the truth

A store is faithful if everything that it holds was made, at the address where it is held. Writing
what was made keeps it so, and so does dropping artifacts. From a faithful store a job is served
with what its body would give, so materialising it gives the same whatever the store holds.
-/

namespace TablePipeline

/-- A store whose artifacts were made where they are, with addresses that are recorded as they are
derived. -/
structure Store.Faithful (bodies : Bodies) (jobs : Set Job) (store : Store) : Prop where
  index : ∀ {key : OutputKey} {address : Address}, store.index.find? key = some address →
    address = .ofFingerprint key.stage key.name key.fingerprint
  payloads : ∀ {address : Address} {stored : StoredArtifact},
    store.payloads.find? address = some stored →
      stored.address = address ∧ Made bodies jobs ⟨address, stored.artifact⟩

namespace Store

variable {bodies : Bodies} {jobs : Set Job} {store : Store}

theorem faithful_empty : Faithful bodies jobs {} :=
  ⟨nofun, nofun⟩

theorem Faithful.proper (faithful : store.Faithful bodies jobs) : store.Proper :=
  ⟨faithful.index, fun held => (faithful.payloads held).1⟩

/-- A store stays faithful if what was made is written. -/
theorem Faithful.put (faithful : store.Faithful bodies jobs) {key : OutputKey} {artifact : Artifact}
    (made : Made bodies jobs ⟨.ofFingerprint key.stage key.name key.fingerprint, artifact⟩) :
    (store.put key artifact).1.Faithful bodies jobs := by
  have proper := faithful.proper.put key artifact
  refine ⟨proper.index, fun {address stored} here => ⟨proper.payloads here, ?_⟩⟩
  rw [payloads_put] at here
  split at here
  · rename_i same
    rw [same, ← Option.some.inj here]
    exact made
  · exact (faithful.payloads here).2

/-- A store stays faithful if artifacts are dropped. -/
theorem Faithful.evict (faithful : store.Faithful bodies jobs) (address : Address) :
    (store.evict address).1.Faithful bodies jobs := by
  refine ⟨faithful.index, fun {other stored} here => ?_⟩
  rw [Store.evict, Dictionary.find?_erase] at here
  split at here
  · cases here
  · exact faithful.payloads here

theorem Faithful.putAll (faithful : store.Faithful bodies jobs) {namespaceName : String}
    {fingerprint : Fingerprint} {pairs : List (Artifact × OutputSpec)}
    (made : ∀ output ∈ (store.putAll namespaceName fingerprint pairs).2, Made bodies jobs output) :
    (store.putAll namespaceName fingerprint pairs).1.Faithful bodies jobs := by
  induction pairs generalizing store with
  | nil => exact faithful
  | cons pair pairs ih =>
    have first := faithful.put (made _ (.head _))
    exact ih first fun output member => made output (.tail _ member)

/-- Some output is not there, or all of them were made where they belong. -/
theorem Faithful.cached (faithful : store.Faithful bodies jobs) (namespaceName : String)
    (fingerprint : Fingerprint) (specs : List OutputSpec) :
    (∃ inconsistent, store.cached namespaceName fingerprint specs = .ok (.miss inconsistent)) ∨
      ∃ outputs, store.cached namespaceName fingerprint specs = .ok (.hit outputs) ∧
        outputs.map (·.address) =
          specs.map (fun spec => .ofFingerprint namespaceName spec.name fingerprint) ∧
        ∀ output ∈ outputs, Made bodies jobs output := by
  obtain ⟨answer, found⟩ := store.exists_cached namespaceName fingerprint specs
  cases answer with
  | miss inconsistent => exact .inl ⟨inconsistent, found⟩
  | hit outputs =>
    refine .inr ⟨outputs, found, faithful.proper.addresses_of_cached found,
      fun output member => ?_⟩
    obtain ⟨stored, held, same⟩ := faithful.proper.held_of_cached found member
    have made := (faithful.payloads held).2
    rwa [same] at made

end Store

/-- Every task has outputs. -/
theorem Task.outputs_ne_nil (task : Task) : task.outputs ≠ [] := by
  rw [outputs]
  split
  · exact List.cons_ne_nil _ _
  · rename_i declared
    exact fun none => declared (List.isEmpty_iff.mpr none)

/-- Does a result tell what a job gives? From the cache alone a job may have no result. -/
structure Job.Honest (job : Job) (mode : Mode) (result : Except TaskError Materialized) : Prop where
  outputs : ∀ {materialized : Materialized}, result = .ok materialized →
    materialized.fingerprint = job.fingerprint ∧ job.given = .ok materialized.outputs
  succeeds : mode ≠ .cacheOnly → result.isOk = job.given.isOk

section

variable {bodies : Bodies} {jobs : Set Job} {job : Job} {workshop : Workshop}
  (collisionless : Collisionless jobs) (lawful : job.Lawful bodies) (known : job ∈ jobs)
  (inputs : ∀ input ∈ job.inputs, Made bodies jobs input)
  (faithful : workshop.store.Faithful bodies jobs)

include collisionless lawful known inputs faithful

/-- What a faithful store has of a job is what the job gives. -/
theorem Store.Faithful.given_of_hit {outputs : List StoredOutput}
    (hit : workshop.store.cached job.namespaceName job.fingerprint job.task.outputs =
      .ok (.hit outputs)) : job.given = .ok outputs := by
  rcases faithful.cached job.namespaceName job.fingerprint job.task.outputs with
    ⟨_, miss⟩ | ⟨others, hit', addresses, made⟩
  · cases hit.symm.trans miss
  · cases hit.symm.trans hit'
    -- Any of the outputs shows that the body succeeds; then all of them are what it gives.
    obtain ⟨spec, isSpec⟩ := List.exists_mem_of_ne_nil _ job.task.outputs_ne_nil
    have placed : job.address spec.name ∈ outputs.map (·.address) := by
      rw [addresses]
      exact List.mem_map.mpr ⟨spec, isSpec, rfl⟩
    obtain ⟨output, member, addressed⟩ := List.mem_map.mp placed
    obtain ⟨others, given⟩ :=
      collisionless.given_of_made lawful known inputs (made output member) isSpec addressed
    have same : others.map (·.address) = outputs.map (·.address) :=
      (lawful.address_of_given given).trans addresses.symm
    rw [given, eq_of_map_eq (fun other isOther output isOutput same => ?_) same]
    have made' := Made.output lawful known inputs given isOther
    exact collisionless.made_unique made' (made output isOutput) (congrArg Address.digest same)

omit collisionless in
/-- Running a body keeps the store faithful. -/
theorem Workshop.execute_faithful : (workshop.execute job).1.store.Faithful bodies jobs := by
  have given := lawful.execute_eq_given workshop
  unfold execute at given ⊢
  dsimp only at given ⊢
  cases produced : produce workshop.executed.length job with
  | error => exact faithful
  | ok artifacts =>
    rw [produced] at given
    exact faithful.putAll fun output member => .output lawful known inputs given.symm member

omit collisionless known inputs faithful in
theorem Workshop.recompute_honest (mode : Mode) (inconsistent : Bool) :
    job.Honest mode (workshop.recompute job inconsistent).2 := by
  have result : (workshop.recompute job inconsistent).2 =
      (workshop.execute job).2.map fun outputs =>
        ⟨job.fingerprint, outputs, .executed, inconsistent⟩ := rfl
  rw [result, lawful.execute_eq_given]
  cases given : job.given with
  | error => exact ⟨nofun, fun _ => by rw [given]; rfl⟩
  | ok outputs =>
    refine ⟨fun {materialized} here => ?_, fun _ => by rw [given]; rfl⟩
    cases here
    exact ⟨rfl, given⟩

/-- Materialising a job tells what the job gives, and keeps the store faithful. -/
theorem Workshop.materialize_honest (mode : Mode) :
    (workshop.materialize job mode).1.store.Faithful bodies jobs ∧
      job.Honest mode (workshop.materialize job mode).2 := by
  have executed := Workshop.execute_faithful lawful known inputs faithful
  have recomputed (inconsistent : Bool) :
      (workshop.recompute job inconsistent).1.store.Faithful bodies jobs ∧
        job.Honest mode (workshop.recompute job inconsistent).2 :=
    ⟨executed, Workshop.recompute_honest lawful mode inconsistent⟩
  have served {outputs : List StoredOutput}
      (hit : workshop.store.cached job.namespaceName job.fingerprint job.task.outputs =
        .ok (.hit outputs)) :
      job.Honest mode (.ok ⟨job.fingerprint, outputs, .cache, false⟩) := by
    have given := faithful.given_of_hit collisionless lawful known inputs hit
    refine ⟨fun {materialized} here => ?_, fun _ => by rw [given]; rfl⟩
    cases here
    exact ⟨rfl, given⟩
  unfold materialize
  dsimp only
  rcases faithful.cached job.namespaceName job.fingerprint job.task.outputs with
    ⟨inconsistent, miss⟩ | ⟨outputs, hit, _⟩
  · cases mode with
    | normal =>
      rw [lawful.deterministic, miss]
      exact recomputed inconsistent
    | recompute =>
      rw [lawful.deterministic]
      exact recomputed false
    | cacheOnly =>
      rw [miss]
      exact ⟨faithful, nofun, fun not => absurd rfl not⟩
  · cases mode with
    | normal =>
      rw [lawful.deterministic, hit]
      exact ⟨faithful, served hit⟩
    | recompute =>
      rw [lawful.deterministic]
      exact recomputed false
    | cacheOnly =>
      rw [hit]
      exact ⟨faithful, served hit⟩

end

end TablePipeline
